import InputLeap.Lib.Reachable
import InputLeap.Protocol.Hello

/-! A client that has connected, from the hello to the end of the handshake. -/

namespace InputLeap

open InputLeap.Lib InputLeap.Io InputLeap.Protocol InputLeap.Protocol.ProtocolUtil

abbrev Stream := PacketStreamFilter StreamBuffer

def kProtocolMajorVersion : UInt32 := 1
def kProtocolMinorVersion : UInt32 := 6

def toInt16 (value : ℕ) : ℤ := (BitVec.ofNat 16 value).toInt

structure ClientProxy where
  name : List UInt8
  /-- `m_parser` is `parseHandshakeMessage`. -/
  handshake : Bool
  /-- It has its handlers. -/
  listens : Bool
  deriving DecidableEq

inductive HandshakeEvent
  | clientProxyReady
  | clientProxyDisconnected
  | clientProxyUnknownSuccess
  | clientProxyUnknownFailure
  deriving DecidableEq

structure ClientProxyUnknown where
  stream : Option Stream
  /-- Whether the handlers for the events of the stream are installed. -/
  streamHandlers : Bool
  proxy : Option ClientProxy
  proxyHandlers : Bool
  ready : Bool
  /-- Whether there is an `m_timer`, with its handler. -/
  timer : Bool
  /-- Ghost: it has not been deleted. -/
  alive : Bool
  /-- Ghost: the messages that have been written to the client since the hello. -/
  sent : List (List UInt8)
  /-- The events in the queue that are for it, its proxy or the listener. -/
  queue : List HandshakeEvent
  /-- Ghost: the events that it has added to the queue. -/
  posted : List HandshakeEvent

namespace ClientProxyUnknown

def new (stream : Stream) : ClientProxyUnknown where
  stream := some stream
  streamHandlers := true
  proxy := none
  proxyHandlers := false
  ready := false
  timer := true
  alive := true
  sent := []
  queue := []
  posted := []

def addEvent (u : ClientProxyUnknown) (e : HandshakeEvent) : ClientProxyUnknown :=
  { u with queue := u.queue ++ [e], posted := u.posted ++ [e] }

def removeHandlers (u : ClientProxyUnknown) : ClientProxyUnknown :=
  { u with
    streamHandlers := u.streamHandlers && u.stream.isNone
    proxyHandlers := u.proxyHandlers && u.proxy.isNone }

/-- The handlers for the events of an object go when it is deleted. -/
def deleteProxy (u : ClientProxyUnknown) : ClientProxyUnknown := { u with proxy := none, proxyHandlers := false }

def removeTimer (u : ClientProxyUnknown) : ClientProxyUnknown := { u with timer := false }

def sendSuccess (u : ClientProxyUnknown) : ClientProxyUnknown :=
  ({ u with ready := true }.removeTimer).addEvent .clientProxyUnknownSuccess

def sendFailure (u : ClientProxyUnknown) : ClientProxyUnknown :=
  ({ u.deleteProxy with ready := false }.removeHandlers.removeTimer).addEvent .clientProxyUnknownFailure

def orphanClientProxy (u : ClientProxyUnknown) : Option ClientProxy × ClientProxyUnknown :=
  if u.ready then (u.proxy, { u.removeHandlers with proxy := none }) else (none, u)

def delete (u : ClientProxyUnknown) : ClientProxyUnknown :=
  { u.removeHandlers.removeTimer.deleteProxy with stream := none, alive := false }

/-- `ClientListener::handle_unknown_client`. -/
def handleUnknownClient (u : ClientProxyUnknown) : ClientProxyUnknown := u.orphanClientProxy.2.delete

/-- There is nothing to write to if the stream is no longer there. -/
def writef (u : ClientProxyUnknown) (fmt : List Char) (args : List Arg) : Option ClientProxyUnknown :=
  u.stream.bind fun _ => (ProtocolUtil.writef fmt args).map fun bytes => { u with sent := u.sent ++ [bytes] }

def incompatible (u : ClientProxyUnknown) : Option ClientProxyUnknown :=
  (u.writef kMsgEIncompatible [.int kProtocolMajorVersion, .int kProtocolMinorVersion]).map sendFailure

def bad (u : ClientProxyUnknown) : Option ClientProxyUnknown := (u.writef kMsgEBad []).map sendFailure

/-- The proxy of the highest version that the client supports. It asks for the screen through its connection. -/
def createProxy (u : ClientProxyUnknown) (major minor : ℤ) (name : List UInt8) : Option ClientProxyUnknown :=
  if major = 1 ∧ minor = 6 then
    (ProtocolUtil.writef kMsgQInfo []).map fun bytes =>
      { u with proxy := some ⟨name, true, true⟩, proxyHandlers := true, sent := u.sent ++ [bytes] }
  else u.incompatible

/-- The result is `none` if a pointer is used that is null. -/
def handleData (u : ClientProxyUnknown) : Option ClientProxyUnknown :=
  u.stream.bind fun stream =>
    if kMaxHelloLength < stream.getSize then u.bad
    else
      let (result, outcome) := readf kMsgHelloBack stream
      let u := { u with stream := some outcome.source }
      match result, outcome.stored with
      | .ok true, [.int major, .int minor, .string name] =>
        if toInt16 major ≤ 0 ∨ toInt16 minor < 0 then u.incompatible
        else { u.removeHandlers with stream := none }.createProxy (toInt16 major) (toInt16 minor) name
      | _, _ => u.bad

inductive UnknownStep
  /-- `STREAM_INPUT_READY`, with all that the stream then holds, which its buffer can count. -/
  | inputReady (stream : Stream) (hstored : stream.buffer.stored < 2 ^ 32)
  /-- `STREAM_OUTPUT_ERROR` or `STREAM_OUTPUT_SHUTDOWN`. -/
  | writeError
  /-- `STREAM_INPUT_SHUTDOWN` or `STREAM_INPUT_FORMAT_ERROR`. -/
  | disconnect
  | timeout
  /-- The proxy has been told about the screen. -/
  | info
  | proxyDisconnect
  | dispatch

/-- A handler is called if it is installed. -/
def dispatch (u : ClientProxyUnknown) : HandshakeEvent → ClientProxyUnknown
  | .clientProxyReady => if u.proxyHandlers then u.sendSuccess else u
  | .clientProxyDisconnected => if u.proxyHandlers then u.sendFailure else u
  | .clientProxyUnknownSuccess | .clientProxyUnknownFailure => if u.alive then u.handleUnknownClient else u

def next (u : ClientProxyUnknown) : UnknownStep → Option ClientProxyUnknown
  | .inputReady stream _ =>
    if u.streamHandlers then { u with stream := u.stream.map fun _ => stream }.handleData else some u
  | .writeError | .disconnect => some (if u.streamHandlers then u.sendFailure else u)
  | .timeout => some (if u.timer then u.sendFailure else u)
  | .info =>
    some <| match u.proxy with
    | some p =>
      if p.listens && p.handshake then
        { u with proxy := some { p with handshake := false }, queue := u.queue ++ [.clientProxyReady] }
      else u
    | none => u
  | .proxyDisconnect =>
    some <| match u.proxy with
    | some p =>
      if p.listens then
        { u with proxy := some { p with listens := false }, queue := u.queue ++ [.clientProxyDisconnected] }
      else u
    | none => u
  | .dispatch =>
    some <| match u.queue with
    | [] => u
    | e :: es => { u with queue := es }.dispatch e

/-- One of the two events has been added, or will be because the timer is running. -/
def Decided (u : ClientProxyUnknown) : Prop :=
  u.posted = [.clientProxyUnknownSuccess] ∨ u.posted = [.clientProxyUnknownFailure] ∨ u.posted = [] ∧ u.timer = true

def parseHello (bytes : List UInt8) : Option (ℤ × ℤ) :=
  ((vreadf kMsgHelloBack).parse bytes).bind fun
    | [.int major, .int minor, .string _] => some (toInt16 major, toInt16 minor)
    | _ => none

/-- The version that the packet gives, if it is a reply to the hello. -/
def hello (stream : Stream) : Option (ℤ × ℤ) :=
  if stream.isReady ∧ stream.packet.length ≤ kMaxHelloLength then parseHello stream.packet else none

def Told (stream : Stream) (u t : ClientProxyUnknown) : Prop :=
  match hello stream with
  | none => some t.sent = (ProtocolUtil.writef kMsgEBad []).map fun bytes => u.sent ++ [bytes]
  | some version => version = (1, 6) ∨
    some t.sent = (ProtocolUtil.writef kMsgEIncompatible [.int 1, .int 6]).map fun bytes => u.sent ++ [bytes]

/-- The step uses no stream that is gone, the client is told, and one event is or will be added. -/
def Keeps (u : ClientProxyUnknown) (e : UnknownStep) : Prop :=
  ∃ t, u.next e = some t ∧ t.Decided ∧
    match e with
    | .inputReady stream _ => u.streamHandlers = true → Told stream u t
    | _ => True

/-- The version is either the supported one or invalid, and what is no reply does not become one with the packets behind
it; and a proxy that is ready is not heard to have disconnected before it is handed over. -/
def Meets (u : ClientProxyUnknown) : UnknownStep → Prop
  | .inputReady stream _ => u.streamHandlers = true →
    match hello stream with
    | none => kMaxHelloLength < stream.getSize ∨ ∀ bytes, stream.Available bytes → parseHello bytes = none
    | some (major, minor) => major ≤ 0 ∨ minor < 0 ∨ (major, minor) = (1, 6)
  | .dispatch => ¬ (u.ready = true ∧ u.proxyHandlers = true ∧ u.queue.head? = some .clientProxyDisconnected)
  | _ => True

inductive Inv : ClientProxyUnknown → Prop
  | waiting (stream : Stream) (sent : List (List UInt8)) :
      Inv ⟨some stream, true, none, false, false, true, true, sent, [], []⟩
  | trying (p : ClientProxy) (sent : List (List UInt8)) (queue : List HandshakeEvent)
      (hready : queue.count .clientProxyReady = if p.handshake then 0 else 1)
      (hqueue : ∀ e ∈ queue, e = .clientProxyReady ∨ e = .clientProxyDisconnected) :
      Inv ⟨none, false, some p, true, false, true, true, sent, queue, []⟩
  | welcomed (p : ClientProxy) (sent : List (List UInt8)) (queue : List HandshakeEvent) (hhandshake : p.handshake = false)
      (hready : .clientProxyReady ∉ queue) :
      Inv ⟨none, false, some p, true, true, false, true, sent, queue, [.clientProxyUnknownSuccess]⟩
  | ended {u : ClientProxyUnknown} (hstream : u.streamHandlers = false) (hproxy : u.proxy = none)
      (hhandlers : u.proxyHandlers = false) (htimer : u.timer = false)
      (hposted : u.posted = [.clientProxyUnknownSuccess] ∨ u.posted = [.clientProxyUnknownFailure]) : Inv u

section Step

variable {u t : ClientProxyUnknown}

lemma Inv.decided (h : Inv u) : u.Decided := by
  cases h with
  | waiting => exact .inr (.inr ⟨rfl, rfl⟩)
  | trying => exact .inr (.inr ⟨rfl, rfl⟩)
  | welcomed => exact .inl rfl
  | ended _ _ _ _ hposted => exact hposted.elim .inl fun h => .inr (.inl h)

lemma sendFailure_inv (hstream : u.streamHandlers = false ∨ u.stream.isSome = true) (hposted : u.posted = []) :
    Inv u.sendFailure := by
  refine .ended ?_ rfl rfl rfl (.inr ?_)
  · change (u.streamHandlers && u.stream.isNone) = false
    rcases hstream with hstream | hstream
    · rw [hstream, Bool.false_and]
    · rw [Option.isNone_eq_false_iff.mpr hstream, Bool.and_false]
  · change u.posted ++ _ = _
    rw [hposted, List.nil_append]

lemma writef_bad (u : ClientProxyUnknown) : u.bad =
    u.stream.map fun _ => { u with sent := u.sent ++ [[69, 66, 65, 68]] }.sendFailure := by
  have hwritef : ProtocolUtil.writef kMsgEBad [] = some [69, 66, 65, 68] := by decide
  rw [bad, writef, hwritef]
  cases u.stream <;> rfl

lemma writef_incompatible (u : ClientProxyUnknown) : u.incompatible =
    u.stream.map fun _ => { u with sent := u.sent ++ [[69, 73, 67, 86, 0, 1, 0, 6]] }.sendFailure := by
  have hwritef : ProtocolUtil.writef kMsgEIncompatible [.int kProtocolMajorVersion, .int kProtocolMinorVersion] =
      some [69, 73, 67, 86, 0, 1, 0, 6] := by decide
  rw [incompatible, writef, hwritef]
  cases u.stream <;> rfl

lemma createProxy_eq (u : ClientProxyUnknown) (major minor : ℤ) (name : List UInt8) :
    u.createProxy major minor name =
      if (major, minor) = (1, 6) then
        some { u with
          proxy := some ⟨name, true, true⟩
          proxyHandlers := true
          sent := u.sent ++ [[81, 73, 78, 70]] }
      else u.incompatible := by
  have hwritef : ProtocolUtil.writef kMsgQInfo [] = some [81, 73, 78, 70] := by decide
  rw [createProxy, hwritef]
  simp only [Prod.mk.injEq, Option.map_some]

lemma parseHello_append {bytes : List UInt8} {v : ℤ × ℤ} (h : parseHello bytes = some v) (rest : List UInt8) :
    parseHello (bytes ++ rest) = some v := by
  obtain ⟨stored, hparse, hversion⟩ := Option.bind_eq_some_iff.mp h
  rw [parseHello, Reader.parse_append hparse rest]
  exact hversion

/-- The first of the packets is a reply only if all of them are, and then the same one. -/
lemma hello_available {stream : Stream} {bytes : List UInt8} (h : stream.Available bytes) {v : ℤ × ℤ}
    (hhello : hello stream = some v) : parseHello bytes = some v := by
  rw [hello] at hhello
  split_ifs at hhello with hpacket
  generalize hf : stream.framer = f at h
  cases h with
  | none hr =>
    rw [PacketStreamFilter.framer_isReady] at hr
    exact absurd (hr.symm.trans hpacket.1) Bool.false_ne_true
  | packet hr hrest =>
    subst hf
    exact parseHello_append hhello _

lemma hello_of_long {stream : Stream} (h : kMaxHelloLength < stream.getSize) : hello stream = none := by
  rw [PacketStreamFilter.getSize] at h
  split_ifs at h with hr
  · have hlen : stream.packet.length = stream.size :=
      Framer.packet_length ((PacketStreamFilter.framer_isReady stream).trans hr)
    rw [hello, if_neg]
    omega
  · exact absurd h (Nat.not_lt_zero _)

lemma handleData_none {stream : Stream} (hstream : u.stream = some stream) (hstored : stream.buffer.stored < 2 ^ 32)
    (h : kMaxHelloLength < stream.getSize ∨ ∃ bytes, stream.Available bytes ∧ parseHello bytes = none) :
    ∃ source, u.handleData = { u with stream := some source }.bad := by
  rw [handleData, hstream, Option.bind_some]
  rcases h with hlong | ⟨bytes, havailable, hnone⟩
  · rw [if_pos hlong]
    refine ⟨stream, ?_⟩
    rw [← hstream]
  · split_ifs with hlong
    · refine ⟨stream, ?_⟩
      rw [← hstream]
    · obtain ⟨hsome, hfailed⟩ := PacketStreamFilter.readf_available kMsgHelloBack havailable hstored
      have hparse : (vreadf kMsgHelloBack).parse bytes = none := by
        cases hparse : (vreadf kMsgHelloBack).parse bytes with
        | none => rfl
        | some stored =>
          obtain ⟨major, minor, name, rfl⟩ := parse_hello hparse
          rw [parseHello, hparse] at hnone
          exact absurd hnone (Option.some_ne_none _)
      have hresult := hfailed hparse
      generalize readf kMsgHelloBack stream = read at hresult ⊢
      obtain ⟨result, outcome⟩ := read
      refine ⟨outcome.source, ?_⟩
      dsimp only at hresult ⊢
      split
      · exact absurd rfl hresult
      · rfl

lemma handleData_some {stream : Stream} (hstream : u.stream = some stream) (hstored : stream.buffer.stored < 2 ^ 32)
    (hlong : ¬ kMaxHelloLength < stream.getSize)
    {bytes : List UInt8} (havailable : stream.Available bytes) {major minor : ℤ}
    (h : parseHello bytes = some (major, minor)) :
    ∃ source name, u.handleData =
      if major ≤ 0 ∨ minor < 0 then { u with stream := some source }.incompatible
      else { { u with stream := some source }.removeHandlers with stream := none }.createProxy major minor name := by
  obtain ⟨stored, hparse, hversion⟩ := Option.bind_eq_some_iff.mp h
  obtain ⟨major', minor', name, rfl⟩ := parse_hello hparse
  obtain ⟨rfl, rfl⟩ := Prod.mk.inj (Option.some.inj hversion)
  obtain ⟨hresult, hstored⟩ := (PacketStreamFilter.readf_available kMsgHelloBack havailable hstored).1 _ hparse
  rw [handleData, hstream, Option.bind_some, if_neg hlong]
  generalize readf kMsgHelloBack stream = read at hresult hstored ⊢
  obtain ⟨result, outcome⟩ := read
  dsimp only at hresult hstored ⊢
  rw [hresult, hstored]
  exact ⟨outcome.source, name, rfl⟩

/-- The first reply that arrives, with what is done about it. -/
inductive Received (u : ClientProxyUnknown) (stream : Stream) : Option ClientProxyUnknown → Prop
  | bad (source : Stream) (h : kMaxHelloLength < stream.getSize ∨
      ∃ bytes, stream.Available bytes ∧ parseHello bytes = none) :
      Received u stream (some { u with stream := some source, sent := u.sent ++ [[69, 66, 65, 68]] }.sendFailure)
  | invalid (source : Stream) (bytes : List UInt8) (major minor : ℤ) (hlong : stream.getSize ≤ kMaxHelloLength)
      (havailable : stream.Available bytes) (h : parseHello bytes = some (major, minor))
      (hversion : major ≤ 0 ∨ minor < 0) :
      Received u stream
        (some { u with stream := some source, sent := u.sent ++ [[69, 73, 67, 86, 0, 1, 0, 6]] }.sendFailure)
  | supported (bytes name : List UInt8) (hlong : stream.getSize ≤ kMaxHelloLength)
      (havailable : stream.Available bytes) (h : parseHello bytes = some (1, 6)) :
      Received u stream (some { u with
        stream := none
        streamHandlers := false
        proxy := some ⟨name, true, true⟩
        proxyHandlers := true
        sent := u.sent ++ [[81, 73, 78, 70]] })
  | unsupported (bytes : List UInt8) (major minor : ℤ) (hlong : stream.getSize ≤ kMaxHelloLength)
      (havailable : stream.Available bytes) (h : parseHello bytes = some (major, minor))
      (hvalid : ¬ (major ≤ 0 ∨ minor < 0)) (hversion : (major, minor) ≠ (1, 6)) : Received u stream none

lemma received {stream : Stream} (hstream : u.stream = some stream) (hstored : stream.buffer.stored < 2 ^ 32) :
    Received u stream u.handleData := by
  obtain ⟨bytes, havailable⟩ : ∃ bytes, stream.Available bytes := Framer.exists_available _
  by_cases hbad : kMaxHelloLength < stream.getSize ∨ ∃ bytes, stream.Available bytes ∧ parseHello bytes = none
  · obtain ⟨source, hdata⟩ := handleData_none hstream hstored hbad
    rw [hdata, writef_bad]
    exact .bad source hbad
  · obtain ⟨hlong, hparse⟩ := not_or.mp hbad
    cases hversion : parseHello bytes with
    | none => exact absurd ⟨bytes, havailable, hversion⟩ hparse
    | some version =>
      obtain ⟨major, minor⟩ := version
      obtain ⟨source, name, hdata⟩ := handleData_some hstream hstored hlong havailable hversion
      rw [hdata]
      split_ifs with hinvalid
      · rw [writef_incompatible]
        exact .invalid source bytes major minor (not_lt.mp hlong) havailable hversion hinvalid
      · rw [createProxy_eq]
        split_ifs with hsupported
        · have hreceived := Received.supported (u := u) bytes name (not_lt.mp hlong) havailable (hsupported ▸ hversion)
          simpa [removeHandlers] using hreceived
        · rw [writef_incompatible]
          exact .unsupported bytes major minor (not_lt.mp hlong) havailable hversion hinvalid hsupported

lemma told_iff (stream : Stream) (u t : ClientProxyUnknown) : Told stream u t ↔
    (hello stream = none → t.sent = u.sent ++ [[69, 66, 65, 68]]) ∧
      ∀ v, hello stream = some v → v = (1, 6) ∨ t.sent = u.sent ++ [[69, 73, 67, 86, 0, 1, 0, 6]] := by
  have hbad : ProtocolUtil.writef kMsgEBad [] = some [69, 66, 65, 68] := by decide
  have hincompatible : ProtocolUtil.writef kMsgEIncompatible [.int 1, .int 6] = some [69, 73, 67, 86, 0, 1, 0, 6] := by
    decide
  rw [Told, hbad, hincompatible]
  cases hello stream <;> simp

lemma hello_eq_none {stream : Stream} (h : kMaxHelloLength < stream.getSize ∨
    ∃ bytes, stream.Available bytes ∧ parseHello bytes = none) : hello stream = none := by
  rcases h with hlong | ⟨bytes, havailable, hnone⟩
  · exact hello_of_long hlong
  · cases hhello : hello stream with
    | none => rfl
    | some v => exact absurd ((hello_available havailable hhello).symm.trans hnone) (Option.some_ne_none _)

lemma hello_eq {stream : Stream} {bytes : List UInt8} (havailable : stream.Available bytes) {v : ℤ × ℤ}
    (h : parseHello bytes = some v) : hello stream = none ∨ hello stream = some v := by
  cases hhello : hello stream with
  | none => exact .inl rfl
  | some w => exact .inr ((hello_available havailable hhello).symm.trans h)

section Reply

variable {stream : Stream} {bytes : List UInt8} {major minor : ℤ} {hstored : stream.buffer.stored < 2 ^ 32}

/-- Packets behind the first one have made a reply of it. -/
lemma not_meets (havailable : stream.Available bytes) {v : ℤ × ℤ} (h : parseHello bytes = some v)
    (hlong : stream.getSize ≤ kMaxHelloLength) (hnone : hello stream = none) (hu : u.streamHandlers = true) :
    ¬ u.Meets (.inputReady stream hstored) := by
  intro hmeets
  have hall := hmeets hu
  rw [hnone] at hall
  rcases hall with hlt | hall
  · exact absurd hlt (not_lt.mpr hlong)
  · exact absurd ((hall bytes havailable).symm.trans h).symm (Option.some_ne_none _)

lemma keeps_iff_told (hnext : u.next (.inputReady stream hstored) = some t) (hinv : Inv t)
    (hu : u.streamHandlers = true) : u.Keeps (.inputReady stream hstored) ↔ Told stream u t := by
  constructor
  · rintro ⟨t', ht', -, htold⟩
    exact Option.some.inj (hnext.symm.trans ht') ▸ htold hu
  · exact fun htold => ⟨t, hnext, hinv.decided, fun _ => htold⟩

lemma bad_iff (h : kMaxHelloLength < stream.getSize ∨ ∃ bytes, stream.Available bytes ∧ parseHello bytes = none)
    (hsent : t.sent = u.sent ++ [[69, 66, 65, 68]]) : Told stream u t ↔ u.Meets (.inputReady stream hstored) := by
  have hnone := hello_eq_none h
  apply iff_of_true
  · refine (told_iff _ _ _).mpr ⟨fun _ => hsent, fun v hv => ?_⟩
    exact absurd (hnone.symm.trans hv).symm (Option.some_ne_none _)
  · intro _
    rw [hnone]
    rcases h with hlong | ⟨bytes, havailable, hparse⟩
    · exact .inl hlong
    · exact .inr fun bytes' havailable' => (havailable.unique havailable') ▸ hparse

lemma invalid_iff (hlong : stream.getSize ≤ kMaxHelloLength) (havailable : stream.Available bytes)
    (h : parseHello bytes = some (major, minor)) (hversion : major ≤ 0 ∨ minor < 0) (hu : u.streamHandlers = true)
    (hsent : t.sent = u.sent ++ [[69, 73, 67, 86, 0, 1, 0, 6]]) :
    Told stream u t ↔ u.Meets (.inputReady stream hstored) := by
  rcases hello_eq havailable h with hhello | hhello
  · apply iff_of_false
    · intro htold
      have hbad := ((told_iff _ _ _).mp htold).1 hhello
      rw [hsent] at hbad
      exact absurd (List.append_cancel_left hbad) (by decide)
    · exact not_meets havailable h hlong hhello hu
  · apply iff_of_true
    · refine (told_iff _ _ _).mpr ⟨fun hnone => ?_, fun _ _ => .inr hsent⟩
      exact absurd (hnone.symm.trans hhello).symm (Option.some_ne_none _)
    · intro _
      rw [hhello]
      rcases hversion with hmajor | hminor
      · exact .inl hmajor
      · exact .inr (.inl hminor)

lemma supported_iff (hlong : stream.getSize ≤ kMaxHelloLength) (havailable : stream.Available bytes)
    (h : parseHello bytes = some (1, 6)) (hu : u.streamHandlers = true)
    (hsent : t.sent = u.sent ++ [[81, 73, 78, 70]]) :
    Told stream u t ↔ u.Meets (.inputReady stream hstored) := by
  rcases hello_eq havailable h with hhello | hhello
  · apply iff_of_false
    · intro htold
      have hbad := ((told_iff _ _ _).mp htold).1 hhello
      rw [hsent] at hbad
      exact absurd (List.append_cancel_left hbad) (by decide)
    · exact not_meets havailable h hlong hhello hu
  · apply iff_of_true
    · refine (told_iff _ _ _).mpr ⟨fun hnone => ?_, fun v hv => .inl ?_⟩
      · exact absurd (hnone.symm.trans hhello).symm (Option.some_ne_none _)
      · exact Option.some.inj (hv.symm.trans hhello)
    · intro _
      rw [hhello]
      exact .inr (.inr rfl)

lemma unsupported_not_meets (hlong : stream.getSize ≤ kMaxHelloLength) (havailable : stream.Available bytes)
    (h : parseHello bytes = some (major, minor)) (hvalid : ¬ (major ≤ 0 ∨ minor < 0))
    (hversion : (major, minor) ≠ (1, 6)) (hu : u.streamHandlers = true) :
    ¬ u.Meets (.inputReady stream hstored) := by
  rcases hello_eq havailable h with hhello | hhello
  · exact not_meets havailable h hlong hhello hu
  · intro hmeets
    have hall := hmeets hu
    rw [hhello] at hall
    rcases hall with hmajor | hminor | hsupported
    · exact hvalid (.inl hmajor)
    · exact hvalid (.inr hminor)
    · exact hversion hsupported

end Reply

lemma inputReady_iff (old stream : Stream) (hstored : stream.buffer.stored < 2 ^ 32) (sent : List (List UInt8)) :
    (Keeps ⟨some old, true, none, false, false, true, true, sent, [], []⟩ (.inputReady stream hstored) ↔
      Meets ⟨some old, true, none, false, false, true, true, sent, [], []⟩ (.inputReady stream hstored)) ∧
    ∀ t, next ⟨some old, true, none, false, false, true, true, sent, [], []⟩ (.inputReady stream hstored) = some t →
      Inv t := by
  have hnext : next ⟨some old, true, none, false, false, true, true, sent, [], []⟩ (.inputReady stream hstored) =
      handleData ⟨some stream, true, none, false, false, true, true, sent, [], []⟩ := rfl
  have hreceived : Received ⟨some stream, true, none, false, false, true, true, sent, [], []⟩ stream _ :=
    received rfl hstored
  rw [← hnext] at hreceived
  generalize hresult : next _ _ = result at hreceived
  have hone : ∀ t t' : ClientProxyUnknown, some t = some t' → Inv t → Inv t' := fun t t' h hinv => Option.some.inj h ▸ hinv
  cases hreceived with
  | bad source h =>
    have hinv : Inv (sendFailure ⟨some source, true, none, false, false, true, true,
        sent ++ [[69, 66, 65, 68]], [], []⟩) := sendFailure_inv (.inr rfl) rfl
    exact ⟨(keeps_iff_told hresult hinv rfl).trans (bad_iff h rfl), fun t' ht' => hone _ t' ht' hinv⟩
  | invalid source bytes major minor hlong havailable h hversion =>
    have hinv : Inv (sendFailure ⟨some source, true, none, false, false, true, true,
        sent ++ [[69, 73, 67, 86, 0, 1, 0, 6]], [], []⟩) := sendFailure_inv (.inr rfl) rfl
    exact ⟨(keeps_iff_told hresult hinv rfl).trans (invalid_iff hlong havailable h hversion rfl rfl),
      fun t' ht' => hone _ t' ht' hinv⟩
  | supported bytes name hlong havailable h =>
    have hinv : Inv ⟨none, false, some ⟨name, true, true⟩, true, false, true, true,
        sent ++ [[81, 73, 78, 70]], [], []⟩ := .trying _ _ _ rfl fun _ h => absurd h List.not_mem_nil
    exact ⟨(keeps_iff_told hresult hinv rfl).trans (supported_iff hlong havailable h rfl rfl),
      fun t' ht' => hone _ t' ht' hinv⟩
  | unsupported bytes major minor hlong havailable h hvalid hversion =>
    refine ⟨iff_of_false ?_ (unsupported_not_meets hlong havailable h hvalid hversion rfl), fun t' ht' => ?_⟩
    · rintro ⟨t', ht', -⟩
      exact Option.some_ne_none _ (ht'.symm.trans hresult)
    · exact absurd ht'.symm (Option.some_ne_none _)

def Goes (u : ClientProxyUnknown) (e : UnknownStep) : Prop :=
  ∃ t, u.next e = some t ∧ (Inv t ∧ u.Meets e ∨ ¬ t.Decided ∧ ¬ u.Meets e)

lemma goes_of_inv {e : UnknownStep} (ht : u.next e = some t) (hinv : Inv t) (hmeets : u.Meets e) : u.Goes e :=
  ⟨t, ht, .inl ⟨hinv, hmeets⟩⟩

lemma waiting_goes (stream : Stream) (sent : List (List UInt8)) (e : UnknownStep) (he : ∀ s hs, e ≠ .inputReady s hs) :
    Goes ⟨some stream, true, none, false, false, true, true, sent, [], []⟩ e := by
  have hwaiting := Inv.waiting stream sent
  have hfailed : Inv (sendFailure ⟨some stream, true, none, false, false, true, true, sent, [], []⟩) :=
    sendFailure_inv (.inr rfl) rfl
  cases e with
  | inputReady s hs => exact absurd rfl (he s hs)
  | writeError => exact goes_of_inv rfl hfailed trivial
  | disconnect => exact goes_of_inv rfl hfailed trivial
  | timeout => exact goes_of_inv rfl hfailed trivial
  | info => exact goes_of_inv rfl hwaiting trivial
  | proxyDisconnect => exact goes_of_inv rfl hwaiting trivial
  | dispatch => exact goes_of_inv rfl hwaiting fun h => Bool.false_ne_true h.1

lemma trying_goes {p : ClientProxy} {sent : List (List UInt8)} {queue : List HandshakeEvent}
    (hready : queue.count .clientProxyReady = if p.handshake then 0 else 1)
    (hqueue : ∀ e ∈ queue, e = .clientProxyReady ∨ e = .clientProxyDisconnected) (e : UnknownStep) :
    Goes ⟨none, false, some p, true, false, true, true, sent, queue, []⟩ e := by
  have htrying := Inv.trying p sent queue hready hqueue
  cases e with
  | inputReady s hs => exact goes_of_inv rfl htrying fun h => absurd h Bool.false_ne_true
  | writeError => exact goes_of_inv rfl htrying trivial
  | disconnect => exact goes_of_inv rfl htrying trivial
  | timeout => exact goes_of_inv rfl (sendFailure_inv (.inl rfl) rfl) trivial
  | info =>
    refine goes_of_inv rfl ?_ trivial
    dsimp only
    split_ifs with hp
    · have hhandshake := (Bool.and_eq_true_iff.mp hp).2
      rw [if_pos hhandshake] at hready
      refine .trying _ _ _ ?_ ?_
      · rw [List.count_append, hready]
        rfl
      · exact List.forall_mem_append.mpr ⟨hqueue, List.forall_mem_singleton.mpr (.inl rfl)⟩
    · exact htrying
  | proxyDisconnect =>
    refine goes_of_inv rfl ?_ trivial
    dsimp only
    split_ifs
    · refine .trying _ _ _ ?_ ?_
      · rw [List.count_append, hready]
        rfl
      · exact List.forall_mem_append.mpr ⟨hqueue, List.forall_mem_singleton.mpr (.inr rfl)⟩
    · exact htrying
  | dispatch =>
    refine goes_of_inv rfl ?_ fun h => Bool.false_ne_true h.1
    cases queue with
    | nil => exact htrying
    | cons e es =>
      rcases hqueue e List.mem_cons_self with rfl | rfl
      · rw [List.count_cons_self] at hready
        split_ifs at hready with hhandshake
        refine .welcomed p sent _ (Bool.eq_false_of_not_eq_true hhandshake) ?_
        intro hmem
        rcases List.mem_append.mp hmem with hmem | hmem
        · exact List.count_eq_zero.mp (Nat.succ_injective hready) hmem
        · exact absurd (List.mem_singleton.mp hmem) (by decide)
      · exact sendFailure_inv (.inl rfl) rfl

lemma not_decided (h : u.posted = [.clientProxyUnknownSuccess, .clientProxyUnknownFailure]) : ¬ u.Decided := by
  simp [Decided, h]

lemma welcomed_goes {p : ClientProxy} {sent : List (List UInt8)} {queue : List HandshakeEvent}
    (hhandshake : p.handshake = false) (hready : .clientProxyReady ∉ queue) (e : UnknownStep) :
    Goes ⟨none, false, some p, true, true, false, true, sent, queue, [.clientProxyUnknownSuccess]⟩ e := by
  have hwelcomed := Inv.welcomed p sent queue hhandshake hready
  cases e with
  | inputReady s hs => exact goes_of_inv rfl hwelcomed fun h => absurd h Bool.false_ne_true
  | writeError => exact goes_of_inv rfl hwelcomed trivial
  | disconnect => exact goes_of_inv rfl hwelcomed trivial
  | timeout => exact goes_of_inv rfl hwelcomed trivial
  | info =>
    refine goes_of_inv rfl ?_ trivial
    dsimp only
    rw [hhandshake, Bool.and_false, if_neg Bool.false_ne_true]
    exact hwelcomed
  | proxyDisconnect =>
    refine goes_of_inv rfl ?_ trivial
    dsimp only
    split_ifs
    · refine .welcomed _ _ _ hhandshake ?_
      simp [hready]
    · exact hwelcomed
  | dispatch =>
    cases queue with
    | nil => exact goes_of_inv rfl hwelcomed fun h => absurd h.2.2.symm (Option.some_ne_none _)
    | cons e es =>
      have hgone := Inv.ended (u := handleUnknownClient
        ⟨none, false, some p, true, true, false, true, sent, es, [.clientProxyUnknownSuccess]⟩) rfl rfl rfl rfl (.inl rfl)
      cases e with
      | clientProxyReady => exact absurd List.mem_cons_self hready
      | clientProxyDisconnected =>
        exact ⟨_, rfl, .inr ⟨not_decided rfl, fun h => h ⟨rfl, rfl, rfl⟩⟩⟩
      | clientProxyUnknownSuccess => exact goes_of_inv rfl hgone fun h => absurd (Option.some.inj h.2.2) (by decide)
      | clientProxyUnknownFailure => exact goes_of_inv rfl hgone fun h => absurd (Option.some.inj h.2.2) (by decide)

lemma ended_goes (hstream : u.streamHandlers = false) (hproxy : u.proxy = none) (hhandlers : u.proxyHandlers = false)
    (htimer : u.timer = false)
    (hposted : u.posted = [.clientProxyUnknownSuccess] ∨ u.posted = [.clientProxyUnknownFailure]) (e : UnknownStep) :
    u.Goes e := by
  have hended := Inv.ended hstream hproxy hhandlers htimer hposted
  cases e with
  | inputReady s hs =>
    refine goes_of_inv ?_ hended fun h => absurd (hstream.symm.trans h) Bool.false_ne_true
    rw [next, hstream, if_neg Bool.false_ne_true]
  | writeError => exact goes_of_inv (by rw [next, hstream, if_neg Bool.false_ne_true]) hended trivial
  | disconnect => exact goes_of_inv (by rw [next, hstream, if_neg Bool.false_ne_true]) hended trivial
  | timeout => exact goes_of_inv (by rw [next, htimer, if_neg Bool.false_ne_true]) hended trivial
  | info => exact goes_of_inv (by rw [next, hproxy]) hended trivial
  | proxyDisconnect => exact goes_of_inv (by rw [next, hproxy]) hended trivial
  | dispatch =>
    refine goes_of_inv rfl ?_ fun h => absurd (hhandlers.symm.trans h.2.1) Bool.false_ne_true
    cases hqueue : u.queue with
    | nil => exact hended
    | cons e es =>
      have hdeleted : Inv (if u.alive then handleUnknownClient { u with queue := es } else { u with queue := es }) := by
        split_ifs
        · rw [handleUnknownClient, orphanClientProxy]
          refine .ended ?_ rfl rfl rfl ?_
          · split_ifs <;> simp [delete, removeHandlers, deleteProxy, removeTimer, hstream]
          · split_ifs <;> exact hposted
        · exact .ended hstream hproxy hhandlers htimer hposted
      cases e with
      | clientProxyReady =>
        dsimp only [dispatch]
        rw [hhandlers, if_neg Bool.false_ne_true]
        exact .ended hstream hproxy rfl htimer hposted
      | clientProxyDisconnected =>
        dsimp only [dispatch]
        rw [hhandlers, if_neg Bool.false_ne_true]
        exact .ended hstream hproxy rfl htimer hposted
      | clientProxyUnknownSuccess => exact hdeleted
      | clientProxyUnknownFailure => exact hdeleted

lemma Goes.keeps_iff {e : UnknownStep} (h : u.Goes e)
    (hdata : ∀ stream hstored, e = .inputReady stream hstored → u.streamHandlers = false) :
    (u.Keeps e ↔ u.Meets e) ∧ (u.Keeps e → ∀ t, u.next e = some t → Inv t) := by
  obtain ⟨t, ht, hgoes⟩ := h
  rcases hgoes with ⟨hinv, hmeets⟩ | ⟨hundecided, hnot⟩
  · constructor
    · refine iff_of_true ⟨t, ht, hinv.decided, ?_⟩ hmeets
      cases e with
      | inputReady stream hstored =>
        exact fun htrue => absurd ((hdata stream hstored rfl).symm.trans htrue) Bool.false_ne_true
      | writeError | disconnect | timeout | info | proxyDisconnect | dispatch => trivial
    · intro _ t' ht'
      exact Option.some.inj (ht.symm.trans ht') ▸ hinv
  · have hnotkeeps : ¬ u.Keeps e := by
      rintro ⟨t', ht', hdecided, -⟩
      exact hundecided (Option.some.inj (ht'.symm.trans ht) ▸ hdecided)
    exact ⟨iff_of_false hnotkeeps hnot, fun hkeeps => absurd hkeeps hnotkeeps⟩

lemma keeps_iff (h : Inv u) (e : UnknownStep) :
    (u.Keeps e ↔ u.Meets e) ∧ (u.Keeps e → ∀ t, u.next e = some t → Inv t) := by
  cases h with
  | waiting stream sent =>
    by_cases hdata : ∃ s hs, e = .inputReady s hs
    · obtain ⟨s, hs, rfl⟩ := hdata
      obtain ⟨hiff, hinv⟩ := inputReady_iff stream s hs sent
      exact ⟨hiff, fun _ => hinv⟩
    · have he : ∀ s hs, e ≠ .inputReady s hs := fun s hs heq => hdata ⟨s, hs, heq⟩
      exact (waiting_goes stream sent e he).keeps_iff fun s hs heq => absurd heq (he s hs)
  | trying p sent queue hready hqueue => exact (trying_goes hready hqueue e).keeps_iff fun _ _ _ => rfl
  | welcomed p sent queue hhandshake hready => exact (welcomed_goes hhandshake hready e).keeps_iff fun _ _ _ => rfl
  | ended hstream hproxy hhandlers htimer hposted =>
    exact (ended_goes hstream hproxy hhandlers htimer hposted e).keeps_iff fun _ _ _ => hstream

end Step

/-- The handshake comes to one end whatever happens, as long as every step meets the condition and only then. -/
theorem handshake_decided_iff (stream : Stream) (es : List UnknownStep) :
    Along next Keeps es (new stream) ↔ Along next Meets es (new stream) := by
  apply Along.congr (I := Inv)
  · intro u e h
    exact (keeps_iff h e).1
  · intro u e t h hkeeps ht
    exact (keeps_iff h e).2 hkeeps t ht
  · exact .waiting stream []

/-- A client of a later version is refused with a message for which there is no stream any more. -/
theorem unsupported_version : ¬ ∀ stream es, Along next Keeps es (new stream) := by
  intro hall
  -- the packet says "Barrier", 1, 7, "a"
  obtain ⟨⟨t, ht, -⟩, -⟩ := hall .new [.inputReady (PacketStreamFilter.afterOps [.inputReady
    [[0, 0, 0, 16, 66, 97, 114, 114, 105, 101, 114, 0, 1, 0, 7, 0, 0, 0, 1, 97]]]) (by decide)]
  have hsome : Option.isNone _ = false := congrArg Option.isNone ht
  exact absurd hsome (by decide)

end ClientProxyUnknown

end InputLeap
