import InputLeap.Client.Session

/-! What the messages of a server come to at a client. Apart from the motion of the mouse it is the same whether they
arrive one at a time or many at once. -/

namespace InputLeap.Client

open Io Protocol Protocol.ProtocolUtil

def Effect.isMotion : Effect → Bool
  | .call (.mouseMove _ _) => true
  | .call (.mouseRelativeMove _ _) => true
  | _ => false

def apart (effects : List Effect) : List Effect := effects.filter fun e => !e.isMotion

namespace Session

def low (v : BitVec 32) : BitVec 16 := v.setWidth 16

def disconnects (s : Session) (msg : String) : Reaction Session Effect := s.leaves [.disconnect (some msg)]

def toldInHandshake (s : Session) : ServerSend → Reaction Session Effect
  | .queryInfo => s.does [.sendInfo]
  | .infoAck => s.does []
  | .setOptions options => completing (s.applyOptions (options.map BitVec.toNat))
  | .resetOptions => s.resetOptions
  | .keepAlive => s.does [.sendKeepAlive, s.resetKeepAliveAlarm]
  | .close .close => s.leaves [.disconnect none]
  | .close .busy => s.disconnects "server already has a connected client with our name"
  | .close .unknown => s.disconnects "server refused client with our name"
  | .incompatible _ _ => s.disconnects "server has incompatible version"
  | .bad => s.disconnects "server reported a protocol error"
  | _ => s.disconnects "invalid message from server"

def toldInSession (uninit : UInt64) (s : Session) : ServerSend → Reaction Session Effect
  | .queryInfo => s.does [.sendInfo]
  | .enter xAbs yAbs seqNum mask =>
    s.does [.call (.enter ((low xAbs).signExtend 32) ((low yAbs).signExtend 32) seqNum (low mask))]
  | .leave => s.does [.call .leave]
  | .keyDown key mask button =>
    s.does [.keyDown (s.table.translateKey ⟨(low key).setWidth 32⟩) (s.table.translateModifierMask ((low mask).setWidth 32))
      button]
  | .keyUp key mask button =>
    s.does [.keyUp (s.table.translateKey ⟨(low key).setWidth 32⟩) (s.table.translateModifierMask ((low mask).setWidth 32))
      button]
  | .keyRepeat key mask count button =>
    s.does [.keyRepeat (s.table.translateKey ⟨(low key).setWidth 32⟩)
      (s.table.translateModifierMask ((low mask).setWidth 32)) (low count) button]
  | .mouseDown button => s.does [.call (.mouseDown button)]
  | .mouseUp button => s.does [.call (.mouseUp button)]
  | .mouseMove _ _ => s.does []
  | .mouseRelativeMove _ _ => s.does []
  | .mouseWheel xDelta yDelta =>
    s.does [.call (.mouseWheel ((low xDelta).signExtend 32) ((low yDelta).signExtend 32))]
  | .dragInfo fileCount data => s.does [.dragInfoReceived (low fileCount).toNat data]
  | .screensaver on => s.does [.screensaver on]
  | .resetOptions => s.resetOptions
  | .setOptions options => s.applyOptions (options.map BitVec.toNat)
  | .infoAck => s.does []
  | .keepAlive => s.does [.sendKeepAlive, s.resetKeepAliveAlarm]
  | .clipboardChunk chunk => s.takeChunk uninit chunk
  | .fileChunk chunk => s.takeFileChunk uninit chunk
  | .grabClipboard id => s.does (if id.toNat < kClipboardEnd then [.grabClipboard id] else [])
  | .dimScreen dim => s.does [.dimScreen dim]
  | .lockState locked => s.does [.cursorLocked locked]
  | .close .close => s.leaves [.disconnect none]
  | .bad => s.disconnects "server reported a protocol error"
  | .close _ | .incompatible _ _ => s.disconnects "invalid message from server"

def told (uninit : UInt64) (s : Session) (m : ServerSend) : Reaction Session Effect :=
  if s.handshake then s.toldInHandshake m else reply (s.toldInSession uninit m)

def Agree (s t : Session) : Prop := ∃ motion, s = { t with motion := motion }

abbrev Alike (a b : Reaction Session Effect) : Prop := Same (fun e => !e.isMotion) Agree a b

section Values

variable (v : BitVec 32)

lemma ofNat_low : BitVec.ofNat 16 ((⟨v⟩ : UInt32).toNat % 256 ^ Width.two.toNat) = low v := by
  apply BitVec.eq_of_toNat_eq
  simp [low, Width.toNat]

lemma ofNat_low_wide : BitVec.ofNat 32 ((⟨v⟩ : UInt32).toNat % 256 ^ Width.two.toNat) = (low v).setWidth 32 := by
  apply BitVec.eq_of_toNat_eq
  simp [low, Width.toNat]

lemma toUInt32_low : ((⟨v⟩ : UInt32).toNat % 256 ^ Width.two.toNat).toUInt32 = ⟨(low v).setWidth 32⟩ :=
  UInt32.toBitVec_inj.mp (ofNat_low_wide v)

lemma ofNat_four : BitVec.ofNat 32 ((⟨v⟩ : UInt32).toNat % 256 ^ Width.four.toNat) = v := by
  apply BitVec.eq_of_toNat_eq
  simp [v.isLt, Width.toNat]

lemma ofNat_button (button : BitVec 16) :
    BitVec.ofNat 16 ((⟨button.setWidth 32⟩ : UInt32).toNat % 256 ^ Width.two.toNat) = button := by
  apply BitVec.eq_of_toNat_eq
  simp [button.isLt, Width.toNat]

lemma ofNat_mouseButton (button : BitVec 8) :
    BitVec.ofNat 8 ((⟨button.setWidth 32⟩ : UInt32).toNat % 256 ^ Width.one.toNat) = button := by
  apply BitVec.eq_of_toNat_eq
  simp [button.isLt, Width.toNat]

lemma toNat_low : (⟨v⟩ : UInt32).toNat % 256 ^ Width.two.toNat = (low v).toNat := by
  simp [low, Width.toNat]

lemma decide_flag (flag : Bool) : decide (((if flag then 1 else 0 : UInt32).toNat % 256 ^ Width.one.toNat) ≠ 0) = flag := by
  cases flag <;> rfl

end Values

section Chunks

variable (uninit : UInt64) (s : Session) (ready : Bool)

lemma setClipboard_stored (chunk : ClipboardChunk) :
    s.setClipboard uninit ⟨true, (ServerSend.clipboardChunk chunk).fields.flatMap Field.stored, ready⟩ =
      s.takeChunk uninit chunk := by
  have hchunk : ClipboardChunk.ofStored ((ServerSend.clipboardChunk chunk).fields.flatMap Field.stored) = some chunk :=
    ClipboardChunk.ofStored_fields chunk
  simp only [setClipboard, hchunk, if_true]

lemma fileChunkReceived_stored (chunk : FileChunk) :
    s.fileChunkReceived uninit ⟨true, (ServerSend.fileChunk chunk).fields.flatMap Field.stored, ready⟩ =
      s.takeFileChunk uninit chunk := by
  have hchunk : FileChunk.ofStored ((ServerSend.fileChunk chunk).fields.flatMap Field.stored) = some chunk :=
    FileChunk.ofStored_fields chunk
  simp only [fileChunkReceived, hchunk, if_true]

end Chunks

section Takes

variable (uninit : UInt64)

lemma unknown_next (s : Session) : s.unknown.next ≠ .goOn := by
  simp [unknown, disconnect, leaves]

lemma handshake_takes (m : ServerSend) : (parseHandshakeMessage m.code.bytes).Takes m.packet := by
  rw [parseHandshakeMessage, MessageCode.compared_bytes]
  cases m with
  | close msg => cases msg <;> exact .inl rfl
  | setOptions options => exact rfl
  | incompatible major minor => exact rfl
  | queryInfo => exact .inl rfl
  | infoAck => exact .inl rfl
  | resetOptions => exact .inl rfl
  | keepAlive => exact .inl rfl
  | bad => exact .inl rfl
  | _ => exact .inr unknown_next

lemma replying_takes {h : Handler Session Effect} {m : Packet} (htakes : h.Takes m) : (replying h).Takes m := by
  cases h with
  | reads before format act => exact htakes
  | plain act =>
    rcases htakes with hnil | hleave
    · exact .inl hnil
    · refine .inr fun s => ?_
      change (reply (act s)).next ≠ .goOn
      rw [reply, if_neg (hleave s)]
      exact hleave s

lemma session_takes (m : ServerSend) : (parseMessage uninit m.code.bytes).Takes m.packet := by
  rw [parseMessage, MessageCode.compared_bytes]
  apply replying_takes
  cases m with
  | close msg => cases msg <;> exact .inl rfl
  | queryInfo => exact .inl rfl
  | infoAck => exact .inl rfl
  | resetOptions => exact .inl rfl
  | keepAlive => exact .inl rfl
  | bad => exact .inl rfl
  | incompatible major minor => exact .inr unknown_next
  | _ => exact rfl

lemma understands {m : ServerSend} (h : m.Sendable) : (endpoint uninit).Understands m.packet := by
  refine ⟨ServerSend.packet_wellFormed h, fun s => ?_⟩
  change (if s.handshake then parseHandshakeMessage m.code.bytes else parseMessage uninit m.code.bytes).Takes m.packet
  split_ifs
  · exact handshake_takes m
  · exact session_takes uninit m

end Takes

section Alike

variable {s t : Session} {a b : Reaction Session Effect}

lemma Agree.refl (s : Session) : s.Agree s := ⟨s.motion, rfl⟩

lemma Agree.moved {s t : Session} (h : s.Agree t) (motion : ServerProxy) : Agree { s with motion := motion } t := by
  obtain ⟨_, rfl⟩ := h
  exact ⟨motion, rfl⟩

lemma Agree.does (h : s.Agree t) {effects effects' : List Effect} (heffects : apart effects = effects') :
    Alike (s.does effects) (t.does effects') := ⟨rfl, heffects, h⟩

lemma Agree.leaves (h : s.Agree t) {effects effects' : List Effect} (heffects : apart effects = effects') :
    Alike (s.leaves effects) (t.leaves effects') := ⟨rfl, heffects, h⟩

lemma Alike.reply (h : Alike a b) : Alike (reply a) (reply b) := by
  rw [Session.reply, Session.reply, h.next]
  split_ifs
  · refine ⟨rfl, (List.filter_append _ _).trans ?_, h.state⟩
    rw [h.effects]
    rfl
  · exact h

lemma Alike.after (h : Alike a b) {effects : List Effect} (heffects : apart effects = []) : Alike (a.after effects) b :=
  Same.after h heffects

lemma apart_flushed (p : ServerProxy) : apart (p.flushCompressedMouse.2.map .call) = [] := by
  cases hc : p.compressMouse <;> cases hr : p.compressMouseRelative <;>
    simp [ServerProxy.flushCompressedMouse, apart, Effect.isMotion, hc, hr]

lemma apart_mouseMove (p : ServerProxy) (x y : BitVec 16) (ready : Bool) :
    apart ((p.mouseMove x y ready).2.map .call) = [] := by
  rw [ServerProxy.mouseMove]
  split_ifs <;> rfl

lemma apart_mouseRelativeMove (p : ServerProxy) (dx dy : BitVec 16) (ready : Bool) :
    apart ((p.mouseRelativeMove dx dy ready).2.map .call) = [] := by
  rw [ServerProxy.mouseRelativeMove]
  split_ifs <;> rfl

section Take

variable (h : s.Agree t) (ready : Bool) {m : Packet} {format : List Char}
  {act : Session → Values → Reaction Session Effect}
include h

lemma take_flushing (hact : ∀ s, s.Agree t → Alike (act s ⟨true, m.fields.flatMap Field.stored, ready⟩) b) :
    Alike ((replying (.reads flushCompressedMouse format act)).take s m ready) (Session.reply b) :=
  (hact _ (h.moved _)).reply.after (apart_flushed s.motion)

lemma take_reads (hact : ∀ s, s.Agree t → Alike (act s ⟨true, m.fields.flatMap Field.stored, ready⟩) b) :
    Alike ((replying (.reads nothing format act)).take s m ready) (Session.reply b) :=
  (hact _ h).reply.after rfl

lemma take_plain {act : Session → Reaction Session Effect} (hact : ∀ s, s.Agree t → Alike (act s) b) :
    Alike ((replying (.plain act)).take s m ready) (Session.reply b) :=
  (hact _ h).reply

end Take

lemma Agree.moves (h : s.Agree t) {r : ServerProxy × List ClientCall} {effects : List Effect}
    (heffects : apart (r.2.map .call) = effects) : Alike (s.moves r) (t.does effects) :=
  ⟨rfl, heffects, h.moved r.1⟩

lemma Agree.resetOptions (h : s.Agree t) : Alike s.resetOptions t.resetOptions := by
  obtain ⟨motion, rfl⟩ := h
  exact ⟨rfl, rfl, motion, rfl⟩

lemma Agree.keepAlive (h : s.Agree t) : Alike s.keepAlive (t.does [.sendKeepAlive, t.resetKeepAliveAlarm]) := by
  obtain ⟨motion, rfl⟩ := h
  exact ⟨rfl, rfl, motion, rfl⟩

lemma foldl_setKeepAliveRate (t : Session) (rates : List Seconds) (motion : ServerProxy) :
    rates.foldl setKeepAliveRate ({ t with motion := motion } : Session) =
      { rates.foldl setKeepAliveRate t with motion := motion } := by
  induction rates generalizing t with
  | nil => rfl
  | cons rate rates ih => exact ih (t.setKeepAliveRate rate)

lemma apart_alarms (rates : List Seconds) : apart (rates.map fun rate => alarm (rate * kKeepAlivesUntilDeath)) =
    rates.map fun rate => alarm (rate * kKeepAlivesUntilDeath) := by
  rw [apart, List.filter_eq_self]
  intro e he
  obtain ⟨rate, -, rfl⟩ := List.mem_map.mp he
  rfl

lemma Agree.applyOptions (h : s.Agree t) (options : List ℕ) : Alike (s.applyOptions options) (t.applyOptions options) := by
  obtain ⟨motion, rfl⟩ := h
  rw [Session.applyOptions, Session.applyOptions]
  split_ifs
  · exact ⟨rfl, rfl, motion, rfl⟩
  · dsimp only
    split
    · exact ⟨rfl, rfl, motion, rfl⟩
    · rename_i settings hsettings
      have hmoved := foldl_setKeepAliveRate { t with settings := settings } (heartbeats options) motion
      refine ⟨rfl, congrArg (Effect.setOptions options :: ·) (apart_alarms (heartbeats options)), motion, ?_⟩
      exact congrArg (fun u : Session => { u with table := u.table.setOptions options }) hmoved

lemma Agree.takeChunk (h : s.Agree t) (uninit : UInt64) (chunk : ClipboardChunk) :
    Alike (s.takeChunk uninit chunk) (t.takeChunk uninit chunk) := by
  obtain ⟨motion, rfl⟩ := h
  rw [Session.takeChunk, Session.takeChunk]
  dsimp only
  split_ifs
  · exact ⟨rfl, rfl, motion, rfl⟩
  · exact ⟨rfl, rfl, motion, rfl⟩

lemma Agree.takeFileChunk (h : s.Agree t) (uninit : UInt64) (chunk : FileChunk) :
    Alike (s.takeFileChunk uninit chunk) (t.takeFileChunk uninit chunk) := by
  obtain ⟨motion, rfl⟩ := h
  rw [Session.takeFileChunk, Session.takeFileChunk]
  dsimp only
  split_ifs
  · exact ⟨rfl, rfl, motion, rfl⟩
  · exact ⟨rfl, rfl, motion, rfl⟩

lemma Agree.table (h : s.Agree t) : s.table = t.table := by
  obtain ⟨_, rfl⟩ := h
  rfl

lemma Agree.does_eq (h : s.Agree t) {effects effects' : List Effect} (heq : effects = effects')
    (heffects : apart effects' = effects') : Alike (s.does effects) (t.does effects') := h.does (heq ▸ heffects)

lemma entries_stored (options : List (BitVec 32)) :
    ((ServerSend.setOptions options).fields.flatMap Field.stored).filterMap entry? = options.map BitVec.toNat := by
  rw [ServerSend.fields, List.flatMap_singleton]
  change (options.map fun v => Stored.entry v.toNat).filterMap entry? = _
  rw [List.filterMap_map]
  exact congrFun List.filterMap_eq_map options

lemma Alike.completing {a b : Reaction Session Effect} (hab : Alike a b) :
    Alike (completing a) (completing b) := by
  rw [Session.completing, Session.completing, hab.next]
  split_ifs
  · obtain ⟨motion, hstate⟩ := hab.state
    refine ⟨rfl, (List.filter_append _ _).trans ?_, motion, ?_⟩
    · rw [hab.effects]
      rfl
    · rw [hstate]
  · exact hab

section Messages

variable (uninit : UInt64) (h : s.Agree t) (ready : Bool)
include h

lemma Agree.setOptions (options : List (BitVec 32)) :
    Alike (s.setOptions ⟨true, (ServerSend.setOptions options).fields.flatMap Field.stored, ready⟩)
      (t.applyOptions (options.map BitVec.toNat)) := by
  rw [Session.setOptions, entries_stored]
  exact h.applyOptions _

lemma take_handshake (m : ServerSend) :
    Alike ((parseHandshakeMessage m.code.bytes).take s m.packet ready) (t.toldInHandshake m) := by
  rw [parseHandshakeMessage, MessageCode.compared_bytes]
  cases m with
  | queryInfo => exact h.does rfl
  | infoAck => exact ⟨rfl, rfl, h.moved _⟩
  | resetOptions => exact h.resetOptions
  | keepAlive => exact h.keepAlive
  | setOptions options => exact (h.setOptions ready options).completing.after rfl
  | close msg => cases msg <;> exact h.leaves rfl
  | _ => exact h.leaves rfl

lemma take_session (m : ServerSend) :
    Alike ((parseMessage uninit m.code.bytes).take s m.packet ready) (reply (t.toldInSession uninit m)) := by
  rw [parseMessage, MessageCode.compared_bytes]
  cases m with
  | queryInfo => exact take_plain h ready fun s hs => hs.does rfl
  | enter xAbs yAbs seqNum mask =>
    refine take_reads h ready fun s hs => hs.moves ?_
    rw [← ofNat_low xAbs, ← ofNat_low yAbs, ← ofNat_low mask]
    conv_rhs => rw [← ofNat_four seqNum]
    rfl
  | leave => exact take_flushing h ready fun s hs => hs.does rfl
  | keyDown key mask button =>
    refine take_flushing h ready fun s hs => hs.does_eq ?_ rfl
    rw [hs.table, toUInt32_low, ofNat_low_wide, ofNat_button]
  | keyUp key mask button =>
    refine take_flushing h ready fun s hs => hs.does_eq ?_ rfl
    rw [hs.table, toUInt32_low, ofNat_low_wide, ofNat_button]
  | keyRepeat key mask count button =>
    refine take_flushing h ready fun s hs => hs.does_eq ?_ rfl
    rw [hs.table, toUInt32_low, ofNat_low_wide, ofNat_low, ofNat_button]
  | mouseDown button =>
    refine take_flushing h ready fun s hs => hs.does_eq ?_ rfl
    rw [ofNat_mouseButton]
  | mouseUp button =>
    refine take_flushing h ready fun s hs => hs.does_eq ?_ rfl
    rw [ofNat_mouseButton]
  | mouseMove xAbs yAbs => exact take_reads h ready fun s hs => hs.moves (apart_mouseMove _ _ _ _)
  | mouseRelativeMove xRel yRel => exact take_reads h ready fun s hs => hs.moves (apart_mouseRelativeMove _ _ _ _)
  | mouseWheel xDelta yDelta =>
    refine take_flushing h ready fun s hs => hs.does_eq ?_ rfl
    rw [ofNat_low, ofNat_low]
  | dragInfo fileCount data =>
    refine take_reads h ready fun s hs => hs.does_eq ?_ rfl
    rw [toNat_low]
  | screensaver on =>
    refine take_reads h ready fun s hs => hs.does_eq ?_ rfl
    rw [decide_flag]
  | resetOptions => exact take_plain h ready fun s hs => hs.resetOptions
  | setOptions options => exact take_reads h ready fun s hs => hs.setOptions ready options
  | infoAck => exact take_plain h ready fun s hs => ⟨rfl, rfl, hs.moved _⟩
  | keepAlive => exact take_plain h ready fun s hs => hs.keepAlive
  | clipboardChunk chunk =>
    refine take_reads h ready fun s hs => ?_
    rw [ServerSend.packet, setClipboard_stored]
    exact hs.takeChunk uninit chunk
  | fileChunk chunk =>
    refine take_reads h ready fun s hs => ?_
    rw [ServerSend.packet, fileChunkReceived_stored]
    exact hs.takeFileChunk uninit chunk
  | grabClipboard id =>
    refine take_reads h ready fun s hs => ?_
    have hid : id.toUInt32.toNat % 256 ^ Width.one.toNat = id.toNat := by
      simp [Width.toNat, Nat.mod_eq_of_lt id.toNat_lt]
    change Alike (if kClipboardEnd ≤ id.toUInt32.toNat % 256 ^ Width.one.toNat then s.does []
      else s.does [.grabClipboard (id.toUInt32.toNat % 256 ^ Width.one.toNat).toUInt8]) (t.does _)
    rw [hid]
    by_cases hlt : id.toNat < kClipboardEnd
    · rw [if_pos hlt, if_neg (Nat.not_le.mpr hlt)]
      exact hs.does (by simp [apart, Effect.isMotion])
    · rw [if_neg hlt, if_pos (Nat.not_lt.mp hlt)]
      exact hs.does rfl
  | dimScreen dim =>
    refine take_reads h ready fun s hs => hs.does_eq ?_ rfl
    rw [decide_flag]
  | lockState locked =>
    refine take_reads h ready fun s hs => hs.does_eq ?_ rfl
    rw [decide_flag]
  | close msg => cases msg <;> exact take_plain h ready fun s hs => hs.leaves rfl
  | incompatible major minor => exact take_plain h ready fun s hs => hs.leaves rfl
  | bad => exact take_plain h ready fun s hs => hs.leaves rfl

lemma take_told (m : ServerSend) :
    Alike (((endpoint uninit).parse s m.code.bytes).take s m.packet ready) (t.told uninit m) := by
  have hhandshake : s.handshake = t.handshake := by
    obtain ⟨_, rfl⟩ := h
    rfl
  have hparse : (endpoint uninit).parse s m.code.bytes =
      if t.handshake then parseHandshakeMessage m.code.bytes else parseMessage uninit m.code.bytes := by
    rw [← hhandshake]
    rfl
  rw [hparse, told]
  split_ifs
  · exact take_handshake h ready m
  · exact take_session uninit h ready m

end Messages

/-- `onInfoChanged`. -/
def infoChanged (_ : Unit) (s : Session) : Session := { s with motion := s.motion.onInfoChanged }

lemma means (uninit : UInt64) :
    (endpoint uninit).Means ServerSend.packet infoChanged (fun e => !e.isMotion) (told uninit) (fun _ t => t) Agree where
  take h ready m := take_told uninit h ready m
  finish {s _} h := ⟨h.moved _, apart_flushed s.motion⟩
  own h _ := h.moved _

end Alike

section Delivery

variable (uninit : UInt64) {before : List (List UInt8)} {sends : List ServerSend} {arrived : List UInt8}
  {l : Link Session Effect} {steps : List (LinkStep Unit)}

def toldAll (s : Session) (ms : List ServerSend) : Reaction Session Effect :=
  Protocol.toldAll (told uninit) (fun (_ : Unit) t => t) s (ms.map .inl)

/-- However the bytes that a server writes are cut, whenever the queue gets to its events and whatever the screen does, the
client is asked for what the messages say, in their order and once, the motion of the mouse aside. When no event is
left, that goes for every message that has arrived. -/
theorem run_toldAll (hsends : ∀ m ∈ sends, m.Sendable) (hbefore : ∀ q ∈ before, q ≠ [] ∧ q.length ≤ maxMessageLength)
    (hstart : l.At before (sends.map ServerSend.packet) arrived []) (hl : l.connected = true ∧ l.effects = [])
    (hpre : arrived ++ arrivedIn steps <+: wire (packets before (sends.map ServerSend.packet)))
    (hfits : l.Fits (endpoint uninit) infoChanged steps) :
    (∀ m ∈ sends, m.written = some m.packet.bytes) ∧ ∃ k ≤ sends.length,
      apart (l.run (endpoint uninit) infoChanged steps).effects = (toldAll uninit l.state (sends.take k)).effects ∧
      ((l.run (endpoint uninit) infoChanged steps).connected = true ↔
        (toldAll uninit l.state (sends.take k)).next = .goOn) ∧
      ((l.run (endpoint uninit) infoChanged steps).connected = true →
        (l.run (endpoint uninit) infoChanged steps).inputReady = 0 → ∀ n ≤ sends.length,
          wire (packets before ((sends.take n).map ServerSend.packet)) <+: arrived ++ arrivedIn steps → n ≤ k) := by
  have hunderstands : ∀ m ∈ sends, (endpoint uninit).Understands m.packet := fun m hm => understands uninit (hsends m hm)
  obtain ⟨items, hitems, -, heffects, hnext, hall⟩ :=
    Link.run_told (means uninit) hunderstands hbefore hstart hl hpre hfits (Agree.refl l.state)
  rw [toldAll_messages fun _ _ => rfl, List.prefix_iff_eq_take.mp hitems] at heffects hnext
  exact ⟨fun m hm => ServerSend.packet_bytes (hsends m hm), (messagesOf items).length, hitems.length_le, heffects, hnext,
    fun hconnected => (hall hconnected).2.2⟩

def opened (settings : ClipboardSettings) : Link Session Effect where
  filter := .new
  inputReady := 0
  state := .new {} settings
  connected := true
  effects := []

lemma opened_at (settings : ClipboardSettings) (messages : List Packet) : (opened settings).At [] messages [] [] where
  framed := by
    rw [opened, PacketStreamFilter.framer_new]
    exact Framer.new_framed
  room := (by decide : (.new : PacketStreamFilter StreamBuffer).buffer.stored < 2 ^ 32)
  announced := (by decide : (.new : PacketStreamFilter StreamBuffer).isReady = true → 0 < 0)

def keySends : List ServerSend := [.queryInfo, .setOptions [], .keyDown 97 0 38]

def keySteps : List (LinkStep Unit) :=
  [.input [[0, 0, 0, 4, 81, 73, 78, 70, 0, 0], [0, 8, 68, 83, 79, 80, 0]], .dispatch, .own (),
    .input [[0, 0, 0, 0, 0, 0, 10, 68, 75, 68, 78, 0, 97, 0, 0, 0, 38]], .dispatch]

theorem run_toldAll_key :
    apart ((opened ⟨true, 100⟩).run (endpoint 0) infoChanged keySteps).effects =
      [.sendInfo, .setOptions [], .handshakeComplete, .keyDown 97 0 38, .sendNoop] := by
  have hsends : ∀ m ∈ keySends, m.Sendable := by
    simp [keySends, ServerSend.Sendable, maxMessageLength]
  have hwire : arrivedIn keySteps = wire (packets [] (keySends.map ServerSend.packet)) := by decide
  have hfits : (opened ⟨true, 100⟩).Fits (endpoint 0) infoChanged keySteps :=
    ⟨by decide, by decide, by decide, by decide, by decide, trivial⟩
  obtain ⟨-, k, hk, heffects, -, hall⟩ := run_toldAll 0 hsends (by simp) (opened_at ⟨true, 100⟩ _) ⟨rfl, rfl⟩
    (hwire ▸ List.prefix_refl _) hfits
  have hle : keySends.length ≤ k := hall (by decide) (by decide) _ le_rfl (by
    rw [List.take_length, List.nil_append, hwire])
  rw [heffects, List.take_of_length_le hle]
  rfl

end Delivery

end Session

end InputLeap.Client
