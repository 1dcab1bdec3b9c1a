import InputLeap.Client.Delivery

/-! Motion that a session ignores: from a change of the screen to the next acknowledgment, a message about the motion
of the mouse comes to nothing. -/

namespace InputLeap

open Protocol

def Protocol.ServerSend.isMotion : ServerSend → Bool
  | mouseMove _ _ => true
  | mouseRelativeMove _ _ => true
  | _ => false

namespace Client

namespace ServerProxy

structure Idle (p : ServerProxy) : Prop where
  compressMouse : p.compressMouse = false
  compressMouseRelative : p.compressMouseRelative = false

lemma flushCompressedMouse_idle (p : ServerProxy) : p.flushCompressedMouse.1.Idle := ⟨rfl, rfl⟩

structure Keeps (p q : ServerProxy) : Prop where
  ignoreMouse : q.ignoreMouse = p.ignoreMouse
  idle : p.ignoreMouse = true → p.Idle → q.Idle

namespace Keeps

variable (p : ServerProxy)

lemma refl : p.Keeps p := ⟨rfl, fun _ h => h⟩

lemma flushCompressedMouse : p.Keeps p.flushCompressedMouse.1 := ⟨rfl, fun _ _ => ⟨rfl, rfl⟩⟩

lemma enter (x y : BitVec 16) (seqNum : BitVec 32) (mask : BitVec 16) : p.Keeps (p.enter x y seqNum mask).1 :=
  ⟨rfl, fun _ _ => ⟨rfl, rfl⟩⟩

lemma mouseMove (x y : BitVec 16) (ready : Bool) : p.Keeps (p.mouseMove x y ready).1 := by
  constructor
  · rw [ServerProxy.mouseMove]
    split_ifs <;> rfl
  · intro hignore hidle
    simp [ServerProxy.mouseMove, hignore, hidle.compressMouse, hidle]

lemma mouseRelativeMove (dx dy : BitVec 16) (ready : Bool) : p.Keeps (p.mouseRelativeMove dx dy ready).1 := by
  constructor
  · rw [ServerProxy.mouseRelativeMove]
    split_ifs <;> rfl
  · intro hignore hidle
    simp [ServerProxy.mouseRelativeMove, hignore, hidle.compressMouseRelative, hidle]

end Keeps

end ServerProxy

namespace Session

variable (uninit : UInt64) (s : Session) (m : ServerSend) (ready : Bool)

def taken : Reaction Session Effect := ((endpoint uninit).parse s m.code.bytes).take s m.packet ready

lemma reply_state (a : Reaction Session Effect) : (reply a).state = a.state := by
  rw [reply]
  split_ifs <;> rfl

lemma replying_take (h : Handler Session Effect) (packet : Packet) :
    (replying h).take s packet ready = reply (h.take s packet ready) := by
  cases h with
  | plain act => rfl
  | reads before format act =>
    by_cases hgo : (act (before s).1 ⟨true, packet.fields.flatMap ProtocolUtil.Field.stored, ready⟩).next = .goOn
    · simp [replying, Handler.take, reply, Reaction.after, hgo]
    · simp [replying, Handler.take, reply, hgo]

lemma taken_session (h : s.handshake = false) :
    taken uninit s m ready = ((parseMessage uninit m.code.bytes).take s m.packet ready) := by
  have hparse : (endpoint uninit).parse s m.code.bytes =
      if s.handshake then parseHandshakeMessage m.code.bytes else parseMessage uninit m.code.bytes := rfl
  rw [taken, hparse, if_neg (by simp [h])]

lemma taken_handshake (h : s.handshake = true) :
    taken uninit s m ready = ((parseHandshakeMessage m.code.bytes).take s m.packet ready) := by
  have hparse : (endpoint uninit).parse s m.code.bytes =
      if s.handshake then parseHandshakeMessage m.code.bytes else parseMessage uninit m.code.bytes := rfl
  rw [taken, hparse, if_pos h]

structure Keeps (s t : Session) : Prop where
  motion : s.motion.Keeps t.motion
  handshake : s.handshake = false → t.handshake = false

namespace Keeps

variable {s} {t : Session}

lemma refl (s : Session) : s.Keeps s := ⟨.refl _, id⟩

lemma moved (motion : ServerProxy) (h : s.motion.Keeps motion) : s.Keeps { s with motion := motion } := ⟨h, id⟩

lemma flushed (s : Session) : s.Keeps s.flushCompressedMouse.1 := .moved _ (.flushCompressedMouse _)

lemma reply {a : Reaction Session Effect} (h : s.Keeps a.state) : s.Keeps (Session.reply a).state := by
  rw [reply_state]
  exact h

lemma completing {a : Reaction Session Effect} (h : s.Keeps a.state) : s.Keeps (Session.completing a).state := by
  rw [Session.completing]
  split_ifs
  · exact ⟨h.motion, fun _ => rfl⟩
  · exact h

lemma foldl_setKeepAliveRate (h : s.Keeps t) (rates : List Seconds) : s.Keeps (rates.foldl setKeepAliveRate t) := by
  induction rates generalizing t with
  | nil => exact h
  | cons rate rates ih =>
    apply ih
    exact ⟨h.motion, h.handshake⟩

lemma applyOptions (s : Session) (options : List ℕ) : s.Keeps (s.applyOptions options).state := by
  rw [Session.applyOptions]
  split_ifs
  · exact .refl s
  · dsimp only
    split
    · exact .refl s
    · rename_i settings _
      have h := foldl_setKeepAliveRate (s := s) (t := { s with settings := settings }) ⟨.refl _, id⟩ (heartbeats options)
      exact ⟨h.motion, h.handshake⟩

lemma takeChunk (s : Session) (chunk : ClipboardChunk) : s.Keeps (s.takeChunk uninit chunk).state := by
  rw [Session.takeChunk]
  dsimp only
  split_ifs <;> exact ⟨.refl _, id⟩

lemma takeFileChunk (s : Session) (chunk : FileChunk) : s.Keeps (s.takeFileChunk uninit chunk).state := ⟨.refl _, id⟩

end Keeps

lemma handshake_keeps (hm : m ≠ .infoAck) : s.Keeps ((parseHandshakeMessage m.code.bytes).take s m.packet ready).state := by
  rw [parseHandshakeMessage, MessageCode.compared_bytes]
  cases m with
  | infoAck => exact absurd rfl hm
  | setOptions options => exact .completing (.applyOptions s _)
  | close msg => cases msg <;> exact .refl s
  | resetOptions => exact ⟨.refl _, id⟩
  | _ => exact .refl s

lemma session_keeps (hm : m ≠ .infoAck) : s.Keeps ((parseMessage uninit m.code.bytes).take s m.packet ready).state := by
  rw [parseMessage, MessageCode.compared_bytes, replying_take]
  apply Keeps.reply
  cases m with
  | infoAck => exact absurd rfl hm
  | mouseMove xAbs yAbs => exact .moved _ (.mouseMove _ _ _ _)
  | mouseRelativeMove xRel yRel => exact .moved _ (.mouseRelativeMove _ _ _ _)
  | enter xAbs yAbs seqNum mask => exact .moved _ (.enter _ _ _ _ _)
  | setOptions options => exact .applyOptions s _
  | resetOptions => exact ⟨.refl _, id⟩
  | clipboardChunk chunk =>
    change s.Keeps (s.setClipboard uninit _).state
    rw [ServerSend.packet, setClipboard_stored]
    exact .takeChunk uninit s chunk
  | fileChunk chunk =>
    change s.Keeps (s.fileChunkReceived uninit _).state
    rw [ServerSend.packet, fileChunkReceived_stored]
    exact .takeFileChunk uninit s chunk
  | grabClipboard id =>
    change s.Keeps (if kClipboardEnd ≤ id.toUInt32.toNat % 256 ^ ProtocolUtil.Width.one.toNat then s.does []
      else s.does [.grabClipboard (id.toUInt32.toNat % 256 ^ ProtocolUtil.Width.one.toNat).toUInt8]).state
    split_ifs <;> exact .refl s
  | close msg => cases msg <;> exact .refl s
  | keyDown key mask button => exact .flushed s
  | keyUp key mask button => exact .flushed s
  | keyRepeat key mask count button => exact .flushed s
  | mouseDown button => exact .flushed s
  | mouseUp button => exact .flushed s
  | mouseWheel xDelta yDelta => exact .flushed s
  | leave => exact .flushed s
  | _ => exact .refl s

lemma taken_keeps (hm : m ≠ .infoAck) : s.Keeps (taken uninit s m ready).state := by
  cases h : s.handshake with
  | true =>
    rw [taken_handshake uninit s m ready h]
    exact handshake_keeps s m ready hm
  | false =>
    rw [taken_session uninit s m ready h]
    exact session_keeps uninit s m ready hm

lemma taken_infoAck : (taken uninit s .infoAck ready).state = { s with motion := s.motion.infoAcknowledgment } ∧
    (taken uninit s .infoAck ready).next = .goOn := by
  by_cases h : s.handshake = true
  · rw [taken_handshake uninit s _ ready h, parseHandshakeMessage, MessageCode.compared_bytes]
    exact ⟨rfl, rfl⟩
  · rw [taken_session uninit s _ ready (Bool.eq_false_iff.mpr h), parseMessage, MessageCode.compared_bytes, replying_take]
    exact ⟨rfl, rfl⟩

lemma taken_ready (hm : m.isMotion = false) (ready' : Bool) : taken uninit s m ready = taken uninit s m ready' := by
  cases h : s.handshake with
  | true =>
    rw [taken_handshake uninit s m ready h, taken_handshake uninit s m ready' h, parseHandshakeMessage,
      MessageCode.compared_bytes]
    cases m with
    | close msg => cases msg <;> rfl
    | _ => rfl
  | false =>
    rw [taken_session uninit s m ready h, taken_session uninit s m ready' h, parseMessage, MessageCode.compared_bytes]
    cases m with
    | mouseMove xAbs yAbs => contradiction
    | mouseRelativeMove xRel yRel => contradiction
    | close msg => cases msg <;> rfl
    | _ => rfl

structure Ignoring (s : Session) : Prop where
  handshake : s.handshake = false
  ignoreMouse : s.motion.ignoreMouse = true
  idle : s.motion.Idle

variable {s m}

lemma Ignoring.taken (h : s.Ignoring) (hm : m ≠ .infoAck) : (s.taken uninit m ready).state.Ignoring := by
  have hkeeps := s.taken_keeps uninit m ready hm
  exact ⟨hkeeps.handshake h.handshake, hkeeps.motion.ignoreMouse.trans h.ignoreMouse,
    hkeeps.motion.idle h.ignoreMouse h.idle⟩

lemma Ignoring.taken_motion (h : s.Ignoring) (hm : m.isMotion = true) :
    s.taken uninit m ready = ⟨s, [.sendNoop], .goOn⟩ := by
  rw [taken_session uninit s m ready h.handshake, parseMessage, MessageCode.compared_bytes, replying_take]
  cases m with
  | mouseMove xAbs yAbs =>
    have hsame : ∀ x y, s.motion.mouseMove x y ready = (s.motion, []) := by
      simp [ServerProxy.mouseMove, h.ignoreMouse, h.idle.compressMouse]
    have hmoves : ∀ x y, s.moves (s.motion.mouseMove x y ready) = s.does [] := by
      simp [moves, does, hsame]
    exact congrArg reply (hmoves _ _)
  | mouseRelativeMove xRel yRel =>
    have hsame : ∀ dx dy, s.motion.mouseRelativeMove dx dy ready = (s.motion, []) := by
      simp [ServerProxy.mouseRelativeMove, h.ignoreMouse, h.idle.compressMouseRelative]
    have hmoves : ∀ dx dy, s.moves (s.motion.mouseRelativeMove dx dy ready) = s.does [] := by
      simp [moves, does, hsame]
    exact congrArg reply (hmoves _ _)
  | _ => contradiction

section Batch

def takeAll (s : Session) (ms : List ServerSend) : Reaction Session Effect :=
  (endpoint uninit).takeAll s (ms.map ServerSend.packet)

/-- What is left aside are the answers that a session gives to whatever it has dealt with. -/
def unanswered (a : Reaction Session Effect) : Reaction Session Effect :=
  { a with effects := a.effects.filter fun e => e ≠ .sendNoop }

lemma unanswered_after (effects : List Effect) (a : Reaction Session Effect) :
    unanswered (a.after effects) = (unanswered a).after (effects.filter fun e => e ≠ .sendNoop) := by
  simp [unanswered, Reaction.after]

lemma takeAll_cons (s : Session) (m : ServerSend) (ms : List ServerSend) :
    takeAll uninit s (m :: ms) =
      if (taken uninit s m (!ms.isEmpty)).next = .goOn then
        (takeAll uninit (taken uninit s m (!ms.isEmpty)).state ms).after (taken uninit s m (!ms.isEmpty)).effects
      else taken uninit s m (!ms.isEmpty) := by
  rw [takeAll, List.map_cons, Endpoint.takeAll, List.isEmpty_map]
  rfl

/-- While motion is ignored, the messages about it may as well be left out. -/
lemma Ignoring.takeAll_append (h : s.Ignoring) {ms : List ServerSend} (hms : ServerSend.infoAck ∉ ms)
    (rest : List ServerSend) :
    unanswered (s.takeAll uninit (ms ++ rest)) =
      unanswered (s.takeAll uninit (ms.filter (fun m => !m.isMotion) ++ rest)) := by
  induction ms generalizing s with
  | nil => rfl
  | cons m ms ih =>
    have hm := List.ne_of_not_mem_cons hms
    replace hms := List.not_mem_of_not_mem_cons hms
    cases hmotion : m.isMotion with
    | true =>
      rw [List.filter_cons_of_neg (by simp [hmotion]), List.cons_append, takeAll_cons, h.taken_motion uninit _ hmotion,
        if_pos rfl, unanswered_after, ih h hms]
      simp [Reaction.after]
    | false =>
      rw [List.filter_cons_of_pos (by simp [hmotion]), List.cons_append, List.cons_append, takeAll_cons, takeAll_cons,
        s.taken_ready uninit m (!(ms ++ rest).isEmpty) hmotion true,
        s.taken_ready uninit m (!(ms.filter (fun m => !m.isMotion) ++ rest).isEmpty) hmotion true]
      split_ifs
      · rw [unanswered_after, unanswered_after, ih (h.taken uninit true (Ne.symm hm)) hms]
      · rfl

/-- At the end of a batch nothing is held back, and motion is ignored if it was and no acknowledgment has come. -/
lemma takeAll_motion {ms : List ServerSend} (h : (s.takeAll uninit ms).next = .goOn) :
    (s.takeAll uninit ms).state.motion.Idle ∧
      ((s.takeAll uninit ms).state.motion.ignoreMouse = true ↔ s.motion.ignoreMouse = true ∧ ServerSend.infoAck ∉ ms) := by
  induction ms generalizing s with
  | nil => exact ⟨s.motion.flushCompressedMouse_idle, by simp [takeAll, Endpoint.takeAll, Reaction.ofPair, endpoint,
      flushCompressedMouse, ServerProxy.flushCompressedMouse]⟩
  | cons m ms ih =>
    rw [takeAll_cons] at h ⊢
    split_ifs at h ⊢ with hgo
    · obtain ⟨hidle, hignore⟩ := ih (s := (s.taken uninit m (!ms.isEmpty)).state) h
      refine ⟨hidle, hignore.trans ?_⟩
      by_cases hm : m = .infoAck
      · subst hm
        simp [(s.taken_infoAck uninit (!ms.isEmpty)).1, ServerProxy.infoAcknowledgment]
      · rw [(s.taken_keeps uninit m (!ms.isEmpty) hm).motion.ignoreMouse]
        simp [Ne.symm hm]
    · exact absurd h hgo

end Batch

end Session

end Client

end InputLeap
