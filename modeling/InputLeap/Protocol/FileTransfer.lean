import InputLeap.Lib.Reachable
import InputLeap.Protocol.ClipboardTransfer

/-! Files that are sent in chunks, each by a thread of its own. `interruptFile` may be called at any point of a
transfer, another may be started before it has ended, and all of them share the two flags. -/

namespace InputLeap.Protocol

open InputLeap.Lib

structure FileChunk where
  mark : UInt8
  data : List UInt8
deriving DecidableEq

namespace FileChunk

def start (size : ℕ) : FileChunk := ⟨kDataStart, Decimal.encode size⟩
def ofData (data : List UInt8) : FileChunk := ⟨kDataChunk, data⟩
def ofEnd : FileChunk := ⟨kDataEnd, []⟩

end FileChunk

namespace StreamChunker

inductive FileEvent
  | fileKeepalive
  | fileChunkSending (chunk : FileChunk)
deriving DecidableEq

def FileEvent.chunk? : FileEvent → Option FileChunk
  | .fileKeepalive => none
  | .fileChunkSending chunk => some chunk

structure FileLoop where
  content : List UInt8
  sentLength : ℕ
  chunkSize : ℕ
deriving DecidableEq

namespace FileLoop

def size (l : FileLoop) : ℕ := l.content.length

def enter (content : List UInt8) : FileLoop := ⟨content, 0, gChunkSize⟩

def nextChunkSize (l : FileLoop) : ℕ :=
  if l.size < l.sentLength + l.chunkSize then l.size - l.sentLength else l.chunkSize

def chunkData (l : FileLoop) : List UInt8 := (l.content.drop l.sentLength).take l.nextChunkSize

def pass (l : FileLoop) : FileLoop := ⟨l.content, l.sentLength + l.nextChunkSize, l.nextChunkSize⟩

def isLast (l : FileLoop) : Bool := l.pass.sentLength == l.size

variable {l : FileLoop}

lemma isLast_iff : l.isLast = true ↔ l.sentLength + l.nextChunkSize = l.size := beq_iff_eq

lemma nextChunkSize_le (h : l.sentLength ≤ l.size) : l.sentLength + l.nextChunkSize ≤ l.size := by
  rw [nextChunkSize]
  split_ifs <;> omega

lemma nextChunkSize_of_not_last (hle : l.sentLength ≤ l.size) (h : l.isLast = false) :
    l.nextChunkSize = l.chunkSize := by
  have hmore : l.sentLength + l.nextChunkSize ≠ l.size := fun he => Bool.false_ne_true (h ▸ isLast_iff.mpr he)
  rw [nextChunkSize] at hmore ⊢
  split_ifs at hmore ⊢
  · omega
  · rfl

lemma take_chunkData (l : FileLoop) :
    l.content.take l.sentLength ++ l.chunkData = l.content.take l.pass.sentLength := by
  rw [chunkData, pass, List.take_add]

end FileLoop

/-- Where `sendFile` is: it has set `s_isChunkingFile` and opens the file, it is in front of the test of
`s_interruptFile`, it has found it set, it is behind the test, or it has left the loop. -/
inductive Phase
  | opening (file : Option (List UInt8))
  | testing (l : FileLoop)
  | clearing (content : List UInt8)
  | reading (l : FileLoop)
  | closing (content : List UInt8)
  | ended
deriving DecidableEq

def Phase.inLoop : Phase → Bool
  | .testing _ | .clearing _ | .reading _ => true
  | _ => false

def Phase.stepsLeft : Phase → ℕ
  | .opening none => 1
  | .opening (some content) => 2 * content.length + 5
  | .testing l => 2 * (l.size - l.sentLength) + 4
  | .clearing _ => 2
  | .reading l => 2 * (l.size - l.sentLength) + 3
  | .closing _ => 1
  | .ended => 0

/-- A thread in `send_file_thread`. The last two fields are history: what it has added to the queue, and whether
`interruptFile` was called in its loop. -/
structure FileThread where
  phase : Phase
  events : List FileEvent := []
  interrupted : Bool := false
deriving DecidableEq

/-- A transfer that has ended: what it sent, and whether `interruptFile` was called in its loop. -/
structure SentFile where
  content : List UInt8
  events : List FileEvent
  interrupted : Bool
deriving DecidableEq

def SentFile.Complete (t : SentFile) : Prop :=
  ∃ chunks : List (List UInt8), chunks.flatten = t.content ∧
    t.events.filterMap FileEvent.chunk? = .start t.content.length :: (chunks.map .ofData ++ [.ofEnd])

/-- The last field is history: the transfers that have ended, in the order of their ends. -/
structure FileSender where
  isChunkingFile : Bool := false
  interruptFile : Bool := false
  threads : List FileThread := []
  queue : List FileEvent := []
  sent : List SentFile := []
deriving DecidableEq

namespace FileSender

def interrupt (s : FileSender) : FileSender :=
  { s with
    interruptFile := if s.isChunkingFile then true else s.interruptFile
    threads := s.threads.map fun t => { t with interrupted := t.interrupted || t.phase.inLoop } }

def sendFile (s : FileSender) (file : Option (List UInt8)) : FileSender :=
  { s with isChunkingFile := true, threads := s.threads ++ [{ phase := .opening file }] }

/-- `sendThread` tells whether `m_sendFileThread` is set. The thread before may still be in its loop. -/
def sendFileToClient (s : FileSender) (sendThread : Bool) (file : Option (List UInt8)) : FileSender :=
  (if sendThread then s.interrupt else s).sendFile file

def goTo (s : FileSender) (i : ℕ) (t : FileThread) (phase : Phase) (events : List FileEvent) : FileSender :=
  { s with
    threads := s.threads.set i { t with phase := phase, events := t.events ++ events }
    queue := s.queue ++ events }

/-- The thread `t`, the `i`-th one, goes on to the next point where another makes a difference. A file that cannot be
opened leaves `s_isChunkingFile` set. -/
def advance (s : FileSender) (i : ℕ) (t : FileThread) : FileSender :=
  match t.phase with
  | .opening none => s.goTo i t .ended []
  | .opening (some content) => s.goTo i t (.testing (.enter content)) [.fileChunkSending (.start content.length)]
  | .testing l =>
    if s.interruptFile then s.goTo i t (.clearing l.content) [] else s.goTo i t (.reading l) [.fileKeepalive]
  | .clearing content => goTo { s with interruptFile := false } i t (.closing content) []
  | .reading l =>
    s.goTo i t (if l.isLast then .closing l.content else .testing l.pass) [.fileChunkSending (.ofData l.chunkData)]
  | .closing content =>
    goTo
      { s with
        isChunkingFile := false
        sent := s.sent ++ [⟨content, t.events ++ [.fileChunkSending .ofEnd], t.interrupted⟩] }
      i t .ended [.fileChunkSending .ofEnd]
  | .ended => s

def proceed (s : FileSender) (i : ℕ) : FileSender := (s.threads[i]?).elim s (s.advance i)

inductive Action
  | sendFileToClient (sendThread : Bool) (file : Option (List UInt8))
  | proceed (i : ℕ)
  | interruptFile
deriving DecidableEq

def next (s : FileSender) : Action → Option FileSender
  | .sendFileToClient sendThread file => some (s.sendFileToClient sendThread file)
  | .proceed i => some (s.proceed i)
  | .interruptFile => some s.interrupt

def Initial (s : FileSender) : Prop := s = {}

/-- A file with something in it does not enter its loop while `s_interruptFile` is set. -/
def Timely (s : FileSender) : Action → Prop
  | .proceed i => ∀ t ∈ s.threads[i]?, ∀ content, t.phase = .opening (some content) → content ≠ [] →
      s.interruptFile = false
  | _ => True

end FileSender

def FileThread.HasSent (t : FileThread) (content : List UInt8) (n : ℕ) : Prop :=
  ∃ chunks : List (List UInt8), chunks.flatten = content.take n ∧
    t.events.filterMap FileEvent.chunk? = .start content.length :: chunks.map .ofData

def FileThread.InLoop (t : FileThread) (l : FileLoop) : Prop :=
  t.HasSent l.content l.sentLength ∧ l.sentLength ≤ l.size ∧ 0 < l.chunkSize

def FileThread.Sends (t : FileThread) : Prop :=
  match t.phase with
  | .opening _ => t.events = [] ∧ t.interrupted = false
  | .testing l | .reading l => t.InLoop l
  | .clearing content | .closing content => ∃ n, t.HasSent content n
  | .ended => True

/-- If `s_interruptFile` is set, that was done in the loop of the transfer, or it has nothing to send. -/
def FileThread.Ok (interruptFile : Bool) (t : FileThread) : Prop :=
  match t.phase with
  | .testing l | .reading l => interruptFile = true → t.interrupted = true ∨ l.content = []
  | .clearing content | .closing content => t.interrupted = true ∨ t.HasSent content content.length
  | .opening _ | .ended => True

namespace FileThread

variable {t : FileThread} {content : List UInt8} {l : FileLoop} {n : ℕ}

lemma hasSent_start (h : t.events = []) (phase : Phase) :
    HasSent { t with phase := phase, events := t.events ++ [.fileChunkSending (.start content.length)] } content 0 :=
  ⟨[], by simp, by simp [h, FileEvent.chunk?]⟩

lemma HasSent.keepalive (h : t.HasSent content n) (phase : Phase) :
    HasSent { t with phase := phase, events := t.events ++ [.fileKeepalive] } content n := by
  obtain ⟨chunks, hflat, hevents⟩ := h
  exact ⟨chunks, hflat, by simp [hevents, FileEvent.chunk?]⟩

lemma HasSent.chunk (h : t.HasSent l.content l.sentLength) (phase : Phase) :
    HasSent { t with phase := phase, events := t.events ++ [.fileChunkSending (.ofData l.chunkData)] } l.content
      l.pass.sentLength := by
  obtain ⟨chunks, hflat, hevents⟩ := h
  refine ⟨chunks ++ [l.chunkData], ?_, by simp [hevents, FileEvent.chunk?]⟩
  rw [List.flatten_append, hflat, List.flatten_singleton, FileLoop.take_chunkData]

lemma HasSent.complete (h : t.HasSent content content.length) (interrupted : Bool) :
    SentFile.Complete ⟨content, t.events ++ [.fileChunkSending .ofEnd], interrupted⟩ := by
  obtain ⟨chunks, hflat, hevents⟩ := h
  rw [List.take_length] at hflat
  exact ⟨chunks, hflat, by simp [hevents, FileEvent.chunk?]⟩

lemma InLoop.pass (h : t.InLoop l) (hlast : l.isLast = false) (phase : Phase) :
    InLoop { t with phase := phase, events := t.events ++ [.fileChunkSending (.ofData l.chunkData)] } l.pass := by
  obtain ⟨hsent, hle, hpos⟩ := h
  refine ⟨hsent.chunk phase, FileLoop.nextChunkSize_le hle, ?_⟩
  change 0 < l.nextChunkSize
  rwa [FileLoop.nextChunkSize_of_not_last hle hlast]

/-- A transfer that finds the flag set is one that was interrupted, or has nothing to send. -/
lemma InLoop.excused (h : t.InLoop l) (hexcuse : t.interrupted = true ∨ l.content = []) :
    t.interrupted = true ∨ t.HasSent l.content l.content.length := by
  refine hexcuse.imp_right fun hempty => ?_
  have hsent := h.1
  have hle := h.2.1
  rw [FileLoop.size, hempty, List.length_nil, Nat.le_zero] at hle
  rw [hle] at hsent
  rwa [hempty] at hsent ⊢

lemma Sends.interrupt (h : t.Sends) : Sends { t with interrupted := t.interrupted || t.phase.inLoop } := by
  rw [Sends] at h ⊢
  rcases hp : t.phase with file | l | content | l | content | _ <;> rw [hp] at h
  case opening => exact ⟨h.1, by rw [h.2]; rfl⟩
  all_goals exact h

lemma Ok.clear (h : t.Ok true) : t.Ok false := by
  rw [Ok] at h ⊢
  rcases hp : t.phase with file | l | content | l | content | _ <;> rw [hp] at h
  case testing | reading => exact fun hfalse => absurd hfalse Bool.false_ne_true
  all_goals exact h

lemma Ok.interrupt {flag : Bool} (h : t.Ok flag) (flag' : Bool) :
    Ok flag' { t with interrupted := t.interrupted || t.phase.inLoop } := by
  rw [Ok] at h ⊢
  rcases hp : t.phase with file | l | content | l | content | _ <;> rw [hp] at h
  case testing | reading => exact fun _ => .inl (Bool.or_true _)
  case clearing => exact .inl (Bool.or_true _)
  case closing => exact h.imp_left fun hinterrupted => by rw [hinterrupted, Bool.true_or]
  all_goals trivial

end FileThread

namespace FileSender

section Sends

variable {s : FileSender} {t : FileThread} {i : ℕ}

lemma advance_spec (s : FileSender) (i : ℕ) (h : t.Sends) (hp : t.phase ≠ .ended) :
    ∃ u, (s.advance i t).threads = s.threads.set i u ∧ u.Sends ∧ u.phase.stepsLeft < t.phase.stepsLeft := by
  rw [FileThread.Sends] at h
  rw [advance]
  rcases hphase : t.phase with file | l | content | l | content | _ <;> rw [hphase] at h
  case opening =>
    cases file with
    | none => exact ⟨_, rfl, trivial, Nat.zero_lt_one⟩
    | some content =>
      refine ⟨_, rfl, ⟨FileThread.hasSent_start h.1 _, Nat.zero_le _, Nat.zero_lt_succ _⟩, ?_⟩
      simp [Phase.stepsLeft, FileLoop.enter, FileLoop.size]
  case testing =>
    dsimp only
    split_ifs
    · refine ⟨_, rfl, ⟨l.sentLength, ?_⟩, by simp [Phase.stepsLeft]⟩
      simpa [FileThread.HasSent] using h.1
    · exact ⟨_, rfl, ⟨h.1.keepalive _, h.2⟩, by simp [Phase.stepsLeft]⟩
  case clearing =>
    obtain ⟨n, hsent⟩ := h
    exact ⟨_, rfl, ⟨n, by simpa [FileThread.HasSent] using hsent⟩, by simp [Phase.stepsLeft]⟩
  case reading =>
    refine ⟨_, rfl, ?_⟩
    cases hl : l.isLast with
    | false =>
      refine ⟨h.pass hl _, ?_⟩
      obtain ⟨-, hle, hpos⟩ := h
      have hnext := FileLoop.nextChunkSize_of_not_last hle hl
      have hle' := FileLoop.nextChunkSize_le hle
      have hsent : l.pass.sentLength = l.sentLength + l.chunkSize := by rw [← hnext]; rfl
      change 2 * (l.size - l.pass.sentLength) + 4 < 2 * (l.size - l.sentLength) + 3
      omega
    | true => exact ⟨⟨l.pass.sentLength, h.1.chunk _⟩, by simp [Phase.stepsLeft]⟩
  case closing => exact ⟨_, rfl, trivial, Nat.zero_lt_one⟩
  case ended => exact absurd hphase hp

lemma advance_sends (hs : ∀ t ∈ s.threads, t.Sends) (ht : t ∈ s.threads) : ∀ u ∈ (s.advance i t).threads, u.Sends := by
  by_cases hp : t.phase = .ended
  · rw [advance, hp]
    exact hs
  · obtain ⟨u, hthreads, hu, -⟩ := advance_spec s i (hs t ht) hp
    rw [hthreads]
    intro v hv
    rcases List.mem_or_eq_of_mem_set hv with hv | rfl
    · exact hs v hv
    · exact hu

lemma interrupt_sends (hs : ∀ t ∈ s.threads, t.Sends) : ∀ t ∈ s.interrupt.threads, t.Sends := by
  intro t ht
  obtain ⟨u, hu, rfl⟩ := List.mem_map.mp ht
  exact (hs u hu).interrupt

lemma sendFile_sends (hs : ∀ t ∈ s.threads, t.Sends) (file : Option (List UInt8)) :
    ∀ t ∈ (s.sendFile file).threads, t.Sends := by
  intro t ht
  rcases List.mem_append.mp ht with ht | ht
  · exact hs t ht
  · obtain rfl := List.mem_singleton.mp ht
    exact ⟨rfl, rfl⟩

lemma next_sends (hs : ∀ t ∈ s.threads, t.Sends) {a : Action} {s' : FileSender} (hnext : s.next a = some s') :
    ∀ t ∈ s'.threads, t.Sends := by
  cases a with
  | sendFileToClient sendThread file =>
    obtain rfl := Option.some.inj hnext
    cases sendThread with
    | false => exact sendFile_sends hs file
    | true => exact sendFile_sends (interrupt_sends hs) file
  | interruptFile => exact Option.some.inj hnext ▸ interrupt_sends hs
  | proceed i =>
    obtain rfl := Option.some.inj hnext
    rw [proceed]
    cases hi : s.threads[i]? with
    | none => exact hs
    | some t => exact advance_sends hs (List.mem_of_getElem? hi)

lemma proceed_ends (hs : ∀ t ∈ s.threads, t.Sends) (ht : s.threads[i]? = some t) :
    ∃ n, (((fun s => s.proceed i)^[n] s).threads[i]?).map FileThread.phase = some .ended := by
  induction hm : t.phase.stepsLeft using Nat.strong_induction_on generalizing s t with
  | _ m ih =>
    by_cases hp : t.phase = .ended
    · exact ⟨0, by rw [Function.iterate_zero_apply, ht, Option.map_some, hp]⟩
    · obtain ⟨u, hthreads, -, hless⟩ := advance_spec s i (hs t (List.mem_of_getElem? ht)) hp
      have hproceed : s.proceed i = s.advance i t := by rw [proceed, ht, Option.elim_some]
      have hu : (s.proceed i).threads[i]? = some u := by
        have hlt := (List.getElem?_eq_some_iff.mp ht).1
        rw [hproceed, hthreads, List.getElem?_set_self hlt]
      have hsends : ∀ t ∈ (s.proceed i).threads, t.Sends := next_sends (a := .proceed i) hs rfl
      obtain ⟨n, hn⟩ := ih _ (hm ▸ hless) hsends hu rfl
      exact ⟨n + 1, hn⟩

end Sends

structure Inv (s : FileSender) : Prop where
  sends : ∀ t ∈ s.threads, t.Sends
  ok : ∀ t ∈ s.threads, t.Ok s.interruptFile
  sent : ∀ f ∈ s.sent, f.interrupted = false → f.Complete

section Step

variable {s : FileSender} {t : FileThread} {i : ℕ}

lemma ok_goTo (hok : ∀ t ∈ s.threads, t.Ok s.interruptFile) {phase : Phase} {events : List FileEvent}
    (ht : FileThread.Ok s.interruptFile { t with phase := phase, events := t.events ++ events }) :
    ∀ u ∈ (s.goTo i t phase events).threads, u.Ok s.interruptFile := by
  intro u hu
  rcases List.mem_or_eq_of_mem_set hu with hu | rfl
  · exact hok u hu
  · exact ht

lemma ok_clear (hok : ∀ t ∈ s.threads, t.Ok s.interruptFile) : ∀ t ∈ s.threads, t.Ok false := by
  intro t ht
  have h := hok t ht
  cases hset : s.interruptFile with
  | true => exact (hset ▸ h).clear
  | false => exact hset ▸ h

lemma ok_interrupt (hok : ∀ t ∈ s.threads, t.Ok s.interruptFile) :
    ∀ t ∈ s.interrupt.threads, t.Ok s.interrupt.interruptFile := by
  intro t ht
  obtain ⟨u, hu, rfl⟩ := List.mem_map.mp ht
  exact (hok u hu).interrupt _

lemma ok_sendFile (hok : ∀ t ∈ s.threads, t.Ok s.interruptFile) (file : Option (List UInt8)) :
    ∀ t ∈ (s.sendFile file).threads, t.Ok (s.sendFile file).interruptFile := by
  intro t ht
  rcases List.mem_append.mp ht with ht | ht
  · exact hok t ht
  · obtain rfl := List.mem_singleton.mp ht
    trivial

lemma Inv.advance_ok (h : Inv s) (ht : t ∈ s.threads)
    (htimely : ∀ content, t.phase = .opening (some content) → content ≠ [] → s.interruptFile = false) :
    ∀ u ∈ (s.advance i t).threads, u.Ok (s.advance i t).interruptFile := by
  have hsends := h.sends t ht
  have hok := h.ok t ht
  rw [FileThread.Ok] at hok
  rw [FileThread.Sends] at hsends
  rw [FileSender.advance]
  rcases hp : t.phase with file | l | content | l | content | _ <;> rw [hp] at hsends hok htimely
  case opening =>
    cases file with
    | none => exact ok_goTo h.ok trivial
    | some content =>
      refine ok_goTo h.ok fun hset => .inr ?_
      by_contra hne
      exact Bool.false_ne_true ((htimely content rfl hne).symm.trans hset)
  case testing =>
    dsimp only
    split_ifs with hset
    · refine ok_goTo h.ok ?_
      exact (hsends.excused (hok hset)).imp_right fun hsent => by simpa [FileThread.HasSent] using hsent
    · exact ok_goTo h.ok hok
  case clearing =>
    refine ok_goTo (s := { s with interruptFile := false }) (ok_clear (s := s) h.ok) ?_
    exact hok.imp_right fun hsent => by simpa [FileThread.HasSent] using hsent
  case reading =>
    refine ok_goTo h.ok ?_
    cases hl : l.isLast with
    | false => exact hok
    | true =>
      have hsent := hsends.1.chunk (.closing l.content)
      rw [show l.pass.sentLength = l.content.length from FileLoop.isLast_iff.mp hl] at hsent
      exact .inr hsent
  case closing => exact ok_goTo (s := { s with isChunkingFile := false, sent := _ }) h.ok trivial
  case ended => exact h.ok

lemma Inv.advance_sent (h : Inv s) (ht : t ∈ s.threads) :
    ∀ f ∈ (s.advance i t).sent, f.interrupted = false → f.Complete := by
  have hok := h.ok t ht
  rw [FileThread.Ok] at hok
  rw [FileSender.advance]
  rcases hp : t.phase with file | l | content | l | content | _ <;> rw [hp] at hok
  case opening => cases file <;> exact h.sent
  case testing =>
    dsimp only
    split_ifs <;> exact h.sent
  case closing =>
    intro f hf hnot
    rcases List.mem_append.mp hf with hf | hf
    · exact h.sent f hf hnot
    · obtain rfl := List.mem_singleton.mp hf
      rcases hok with hinterrupted | hsent
      · exact absurd (hnot.symm.trans hinterrupted) Bool.false_ne_true
      · exact hsent.complete _
  all_goals exact h.sent

lemma Inv.next (h : Inv s) {a : Action} (htimely : Timely s a) {s' : FileSender} (hnext : s.next a = some s') : Inv s' := by
  refine ⟨next_sends h.sends hnext, ?_, ?_⟩
  · cases a with
    | sendFileToClient sendThread file =>
      obtain rfl := Option.some.inj hnext
      cases sendThread with
      | false => exact ok_sendFile h.ok file
      | true => exact ok_sendFile (ok_interrupt h.ok) file
    | interruptFile => exact Option.some.inj hnext ▸ ok_interrupt h.ok
    | proceed i =>
      obtain rfl := Option.some.inj hnext
      rw [proceed]
      cases hi : s.threads[i]? with
      | none => exact h.ok
      | some t => exact h.advance_ok (List.mem_of_getElem? hi) (htimely t hi)
  · cases a with
    | sendFileToClient sendThread file =>
      obtain rfl := Option.some.inj hnext
      cases sendThread <;> exact h.sent
    | interruptFile => exact Option.some.inj hnext ▸ h.sent
    | proceed i =>
      obtain rfl := Option.some.inj hnext
      rw [proceed]
      cases hi : s.threads[i]? with
      | none => exact h.sent
      | some t => exact h.advance_sent (List.mem_of_getElem? hi)

lemma reachable_inv (h : Reachable Initial next Timely s) : Inv s := by
  apply h.invariant
  · rintro _ rfl
    exact ⟨by simp, by simp, by simp⟩
  · exact fun _ _ _ hs htimely hnext => hs.next htimely hnext

lemma not_complete_of_empty {content : List UInt8} (hne : content ≠ []) (size : ℕ) (interrupted : Bool) :
    ¬ SentFile.Complete ⟨content, [.fileChunkSending (.start size), .fileChunkSending .ofEnd], interrupted⟩ := by
  rintro ⟨chunks, hflat, hevents⟩
  cases chunks with
  | nil => exact hne hflat.symm
  | cons c cs => simp [FileEvent.chunk?, FileChunk.ofData, FileChunk.ofEnd, kDataChunk, kDataEnd] at hevents

@[simp] lemma goTo_length (s : FileSender) (phase : Phase) (events : List FileEvent) :
    (s.goTo i t phase events).threads.length = s.threads.length := List.length_set

@[simp] lemma goTo_interruptFile (s : FileSender) (phase : Phase) (events : List FileEvent) :
    (s.goTo i t phase events).interruptFile = s.interruptFile := rfl

@[simp] lemma goTo_sent (s : FileSender) (phase : Phase) (events : List FileEvent) :
    (s.goTo i t phase events).sent = s.sent := rfl

lemma proceed_goTo (hlt : i < s.threads.length) (phase : Phase) (events : List FileEvent) :
    (s.goTo i t phase events).proceed i =
      (s.goTo i t phase events).advance i { t with phase := phase, events := t.events ++ events } := by
  have hget : (s.goTo i t phase events).threads[i]? = some { t with phase := phase, events := t.events ++ events } :=
    List.getElem?_set_self hlt
  rw [proceed, hget, Option.elim_some]

/-- A file that has entered its loop with `s_interruptFile` set may go on to the end without its data. -/
lemma cut_of_set {content : List UInt8} (ht : s.threads[i]? = some t) (hphase : t.phase = .opening (some content))
    (hsends : t.Sends) (hne : content ≠ []) (hset : s.interruptFile = true) :
    ∃ u, runFrom next [.proceed i, .proceed i, .proceed i] (s.proceed i) = some u ∧
      ∃ f ∈ u.sent, f.interrupted = false ∧ ¬ f.Complete := by
  obtain ⟨phase, events, interrupted⟩ := t
  rw [FileThread.Sends, hphase] at hsends
  obtain ⟨hevents, hinterrupted⟩ := hsends
  obtain ⟨hlt, -⟩ := List.getElem?_eq_some_iff.mp ht
  dsimp only at hphase hevents hinterrupted
  subst hphase hevents hinterrupted
  have hproceed : s.proceed i = s.goTo i ⟨.opening (some content), [], false⟩ (.testing (.enter content))
      [.fileChunkSending (.start content.length)] := by
    rw [proceed, ht]
    rfl
  refine ⟨_, rfl, ⟨content, _, false⟩, ?_, rfl, not_complete_of_empty hne content.length false⟩
  simp [hproceed, proceed_goTo, advance, hlt, hset, FileLoop.enter]

end Step

/-- Every transfer ends, and a file whose loop `interruptFile` was not called in arrives whole, as long as no file
enters its loop while `s_interruptFile` is set by a call before. One that does may be cut. -/
theorem sent_complete_of_timely {s : FileSender} (h : Reachable Initial next Timely s) :
    (∀ f ∈ s.sent, f.interrupted = false → f.Complete) ∧
      (∀ i < s.threads.length,
        ∃ n, (((fun s => s.proceed i)^[n] s).threads[i]?).map FileThread.phase = some .ended) ∧
      ∀ a t, s.next a = some t → ¬ Timely s a →
        ∃ as u, runFrom next as t = some u ∧ ∃ f ∈ u.sent, f.interrupted = false ∧ ¬ f.Complete := by
  have hinv := reachable_inv h
  refine ⟨hinv.sent, fun i hi => proceed_ends hinv.sends (List.getElem?_eq_getElem hi), ?_⟩
  intro a t hnext huntimely
  cases a with
  | sendFileToClient | interruptFile => exact absurd trivial huntimely
  | proceed i =>
    obtain rfl := Option.some.inj hnext
    simp only [Timely, not_forall] at huntimely
    obtain ⟨u, hu, content, hphase, hne, hset⟩ := huntimely
    obtain ⟨v, hv, hcut⟩ := cut_of_set hu hphase (hinv.sends u (List.mem_of_getElem? hu)) hne (by simpa using hset)
    exact ⟨_, v, hv, hcut⟩

instance (s : FileSender) : (a : Action) → Decidable (Timely s a)
  | .proceed i =>
    match hi : s.threads[i]? with
    | none => .isTrue (by simp [Timely, hi])
    | some t =>
      match hp : t.phase with
      | .opening (some content) => decidable_of_iff (content ≠ [] → s.interruptFile = false) (by simp [Timely, hi, hp])
      | .opening none | .testing _ | .clearing _ | .reading _ | .closing _ | .ended => .isTrue (by simp [Timely, hi, hp])
  | .sendFileToClient _ _ | .interruptFile => .isTrue trivial

theorem sent_complete_after_interruption :
    ∃ s : FileSender, Reachable Initial next Timely s ∧
      s.sent.map (·.interrupted) = [true, false] ∧ ∀ f ∈ s.sent, f.interrupted = false → f.Complete := by
  obtain ⟨s, hs, hsent⟩ : ∃ s, Reachable Initial next Timely s ∧ s.sent.map (·.interrupted) = [true, false] :=
    Reachable.exists_of_run rfl [.sendFileToClient false (some [104, 105]), .proceed 0,
      .sendFileToClient true (some [104, 105]), .proceed 0, .proceed 0, .proceed 1, .proceed 0, .proceed 1, .proceed 1,
      .proceed 1] (by decide)
  exact ⟨s, hs, hsent, (sent_complete_of_timely hs).1⟩

/-- A file is in its loop when another is sent. The second thread finds the flag that was meant for the first. -/
theorem sent_incomplete_after_restart :
    ¬ ∀ s : FileSender, Reachable Initial next (fun _ _ => True) s →
      ∀ f ∈ s.sent, f.interrupted = false → f.Complete := by
  intro hall
  obtain ⟨s, hs, hsent⟩ : ∃ s, Reachable Initial next (fun _ _ => True) s ∧
      s.sent = [⟨[104], [.fileChunkSending (.start 1), .fileChunkSending .ofEnd], false⟩] :=
    Reachable.exists_of_run rfl [.sendFileToClient false (some [105]), .proceed 0, .sendFileToClient true (some [104]),
      .proceed 1, .proceed 1, .proceed 1, .proceed 1] (by decide)
  exact not_complete_of_empty (List.cons_ne_nil _ _) 1 false (hall s hs _ (hsent ▸ List.mem_singleton_self _) rfl)

end FileSender

end StreamChunker

end InputLeap.Protocol
