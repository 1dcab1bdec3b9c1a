import InputLeap.Protocol.FileTransfer

/-! The receiver of files. It has no notion of a transfer: a start clears what it holds, data is appended to that,
and at an end the length is compared with the size that the last start has announced. -/

namespace InputLeap.Protocol

open InputLeap.Lib StreamChunker ProtocolUtil

structure FileAssembly where
  received : List UInt8 := []
  expectedSize : ℕ := 0
deriving DecidableEq

namespace FileChunk

def ofStored : List Stored → Option FileChunk
  | [.int mark, .string data] => some ⟨mark.toUInt8, data⟩
  | _ => none

lemma ofStored_fields (chunk : FileChunk) :
    ofStored [.int (chunk.mark.toUInt32.toNat % 256 ^ 1), .string chunk.data] = some chunk := by
  have hmark : (chunk.mark.toUInt32.toNat % 256 ^ 1).toUInt8 = chunk.mark := by
    simp [Nat.mod_eq_of_lt chunk.mark.toNat_lt]
  rw [ofStored, hmark]

def assemble (uninit : UInt64) (a : FileAssembly) (chunk : FileChunk) : FileAssembly × DataReceived :=
  if chunk.mark = kDataStart then (⟨[], stringToSizeType uninit chunk.data⟩, .start)
  else if chunk.mark = kDataChunk then ({ a with received := a.received ++ chunk.data }, .notFinish)
  else if chunk.mark = kDataEnd then if a.expectedSize ≠ a.received.length then (a, .error) else (a, .finish)
  else (a, .error)

def files (uninit : UInt64) : FileAssembly → List FileChunk → List (List UInt8)
  | _, [] => []
  | a, chunk :: chunks =>
    let (b, received) := assemble uninit a chunk
    if received = .finish then b.received :: files uninit b chunks else files uninit b chunks

section Files

variable (uninit : UInt64) (a : FileAssembly)

lemma files_start {size : ℕ} (h : size < 2 ^ 64) (chunks : List FileChunk) :
    files uninit a (start size :: chunks) = files uninit ⟨[], size⟩ chunks := by
  simp [files, assemble, start, ClipboardChunk.stringToSizeType_encode uninit h]

lemma files_data (datas : List (List UInt8)) (chunks : List FileChunk) :
    files uninit a (datas.map ofData ++ chunks) =
      files uninit { a with received := a.received ++ datas.flatten } chunks := by
  induction datas generalizing a with
  | nil => simp
  | cons data datas ih =>
    have hstep : files uninit a (ofData data :: (datas.map ofData ++ chunks)) =
        files uninit { a with received := a.received ++ data } (datas.map ofData ++ chunks) := by
      simp [files, assemble, ofData, kDataStart, kDataChunk]
    rw [List.map_cons, List.cons_append, hstep, ih]
    simp

lemma files_end (chunks : List FileChunk) :
    files uninit a (ofEnd :: chunks) =
      (if a.expectedSize = a.received.length then [a.received] else []) ++ files uninit a chunks := by
  by_cases h : a.expectedSize = a.received.length <;>
    simp [files, assemble, ofEnd, kDataStart, kDataChunk, kDataEnd, h]

end Files

end FileChunk

namespace StreamChunker

def SentFile.chunks (t : SentFile) : List FileChunk := t.events.filterMap FileEvent.chunk?

def SentFile.data (t : SentFile) : List UInt8 :=
  (t.chunks.filter fun chunk => chunk.mark = kDataChunk).flatMap FileChunk.data

def SentFile.Cut (t : SentFile) : Prop :=
  ∃ datas : List (List UInt8), datas.flatten <+: t.content ∧
    t.chunks = .start t.content.length :: (datas.map .ofData ++ [.ofEnd])

lemma SentFile.data_eq {t : SentFile} {datas : List (List UInt8)}
    (h : t.chunks = .start t.content.length :: (datas.map .ofData ++ [.ofEnd])) : t.data = datas.flatten := by
  have hall : (datas.map FileChunk.ofData).filter (fun chunk => chunk.mark = kDataChunk) = datas.map FileChunk.ofData := by
    simp [FileChunk.ofData]
  have hmark : kDataStart ≠ kDataChunk := by decide
  have hstart : ∀ size, (FileChunk.start size).mark ≠ kDataChunk := fun _ => hmark
  have hend : FileChunk.ofEnd.mark ≠ kDataChunk := by decide
  rw [SentFile.data, h, List.filter_cons_of_neg (by simp [hstart]), List.filter_append, hall,
    List.filter_cons_of_neg (by simp [hend]), List.filter_nil, List.append_nil]
  simp [List.flatMap_map, FileChunk.ofData, List.flatMap_id']

def FileThread.chunks (t : FileThread) : List FileChunk := t.events.filterMap FileEvent.chunk?

lemma FileThread.HasSent.cut {t : FileThread} {content : List UInt8} {n : ℕ} (h : t.HasSent content n)
    (interrupted : Bool) : SentFile.Cut ⟨content, t.events ++ [.fileChunkSending .ofEnd], interrupted⟩ := by
  obtain ⟨datas, hflat, hevents⟩ := h
  exact ⟨datas, hflat ▸ List.take_prefix n content, by simp [SentFile.chunks, hevents, FileEvent.chunk?]⟩

namespace FileSender

def chunks (s : FileSender) : List FileChunk := s.queue.filterMap FileEvent.chunk?

def Alone (s : FileSender) : Action → Prop
  | .sendFileToClient _ _ => ∀ t ∈ s.threads, t.phase = .ended
  | _ => True

/-- The chunks in the queue are those of the files that have been sent, and of the one that is being sent. -/
inductive OneByOne (s : FileSender) : Prop
  | resting (hended : ∀ t ∈ s.threads, t.phase = .ended) (hchunks : s.chunks = s.sent.flatMap SentFile.chunks)
  | sending (done : List FileThread) (t : FileThread) (hthreads : s.threads = done ++ [t])
      (hended : ∀ u ∈ done, u.phase = .ended) (hphase : t.phase ≠ .ended) (hsends : t.Sends)
      (hchunks : s.chunks = s.sent.flatMap SentFile.chunks ++ t.chunks)

section OneByOne

variable {s : FileSender} {t : FileThread} {done : List FileThread}

lemma goTo_threads (hthreads : s.threads = done ++ [t]) (phase : Phase) (events : List FileEvent) :
    (s.goTo done.length t phase events).threads = done ++ [{ t with phase := phase, events := t.events ++ events }] := by
  simp [goTo, hthreads]

lemma goTo_chunks (i : ℕ) (phase : Phase) (events : List FileEvent) :
    (s.goTo i t phase events).chunks = s.chunks ++ events.filterMap FileEvent.chunk? := List.filterMap_append

lemma goTo_ended (hthreads : s.threads = done ++ [t]) (hended : ∀ u ∈ done, u.phase = .ended) (events : List FileEvent) :
    ∀ u ∈ (s.goTo done.length t .ended events).threads, u.phase = .ended := by
  rw [goTo_threads hthreads]
  exact List.forall_mem_append.mpr ⟨hended, List.forall_mem_singleton.mpr rfl⟩

lemma goTo_sending (hthreads : s.threads = done ++ [t]) (hended : ∀ u ∈ done, u.phase = .ended)
    (hchunks : s.chunks = s.sent.flatMap SentFile.chunks ++ t.chunks) {phase : Phase} {events : List FileEvent}
    (hphase : phase ≠ .ended) (hsends : FileThread.Sends { t with phase := phase, events := t.events ++ events }) :
    OneByOne (s.goTo done.length t phase events) := by
  refine .sending done _ (goTo_threads hthreads phase events) hended hphase hsends ?_
  rw [goTo_chunks, hchunks, List.append_assoc, FileThread.chunks, FileThread.chunks, List.filterMap_append]
  rfl

lemma interrupt_oneByOne (h : OneByOne s) : OneByOne s.interrupt := by
  cases h with
  | resting hended hchunks =>
    refine .resting (fun u hu => ?_) hchunks
    obtain ⟨t, ht, rfl⟩ := List.mem_map.mp hu
    exact hended t ht
  | sending done t hthreads hended hphase hsends hchunks =>
    refine .sending (done.map fun t => { t with interrupted := t.interrupted || t.phase.inLoop })
      { t with interrupted := t.interrupted || t.phase.inLoop } ?_ (fun u hu => ?_) hphase hsends.interrupt hchunks
    · simp [interrupt, hthreads]
    · obtain ⟨t, ht, rfl⟩ := List.mem_map.mp hu
      exact hended t ht

lemma OneByOne.resting_chunks (h : OneByOne s) (hended : ∀ t ∈ s.threads, t.phase = .ended) :
    s.chunks = s.sent.flatMap SentFile.chunks := by
  cases h with
  | resting _ hchunks => exact hchunks
  | sending done t hthreads _ hphase => exact absurd (hended t (by simp [hthreads])) hphase

lemma sendFile_oneByOne (h : OneByOne s) (hended : ∀ t ∈ s.threads, t.phase = .ended) (file : Option (List UInt8)) :
    OneByOne (s.sendFile file) := by
  refine .sending s.threads _ rfl hended ?_ ⟨rfl, rfl⟩ ?_
  · exact Phase.noConfusion
  · exact (h.resting_chunks hended).trans (List.append_nil _).symm

lemma advance_oneByOne (hthreads : s.threads = done ++ [t]) (hended : ∀ u ∈ done, u.phase = .ended)
    (hphase : t.phase ≠ .ended) (hsends : t.Sends) (hchunks : s.chunks = s.sent.flatMap SentFile.chunks ++ t.chunks) :
    OneByOne (s.advance done.length t) := by
  rw [FileThread.Sends] at hsends
  rw [advance]
  rcases hp : t.phase with file | l | content | l | content | _ <;> rw [hp] at hsends
  case opening =>
    cases file with
    | none =>
      refine .resting (goTo_ended hthreads hended _) ?_
      rw [goTo_chunks, hchunks, FileThread.chunks, hsends.1]
      exact (List.append_nil _).trans (List.append_nil _)
    | some content =>
      refine goTo_sending hthreads hended hchunks Phase.noConfusion ?_
      exact ⟨FileThread.hasSent_start hsends.1 _, Nat.zero_le _, Nat.zero_lt_succ _⟩
  case testing =>
    dsimp only
    split_ifs
    · refine goTo_sending hthreads hended hchunks Phase.noConfusion ⟨l.sentLength, ?_⟩
      simpa [FileThread.HasSent] using hsends.1
    · exact goTo_sending hthreads hended hchunks Phase.noConfusion ⟨hsends.1.keepalive _, hsends.2⟩
  case clearing =>
    obtain ⟨n, hsent⟩ := hsends
    refine goTo_sending (s := { s with interruptFile := false }) hthreads hended hchunks Phase.noConfusion ⟨n, ?_⟩
    simpa [FileThread.HasSent] using hsent
  case reading =>
    dsimp only
    cases hl : l.isLast with
    | false => exact goTo_sending hthreads hended hchunks Phase.noConfusion (hsends.pass hl _)
    | true => exact goTo_sending hthreads hended hchunks Phase.noConfusion ⟨_, hsends.1.chunk _⟩
  case closing =>
    refine .resting (goTo_ended (s := { s with isChunkingFile := false, sent := _ }) hthreads hended _) ?_
    rw [goTo_chunks]
    change s.chunks ++ _ = List.flatMap _ (s.sent ++ [_])
    rw [hchunks, List.flatMap_append, List.flatMap_singleton, List.append_assoc, SentFile.chunks, List.filterMap_append]
    rfl
  case ended => exact absurd hp hphase

lemma proceed_oneByOne (h : OneByOne s) (i : ℕ) : OneByOne (s.proceed i) := by
  rw [proceed]
  cases hi : s.threads[i]? with
  | none => exact h
  | some u =>
    by_cases hu : u.phase = .ended
    · rw [Option.elim_some, advance, hu]
      exact h
    · cases h with
      | resting hended => exact absurd (hended u (List.mem_of_getElem? hi)) hu
      | sending done t hthreads hended hphase hsends hchunks =>
        -- it is the last one that has not ended
        rw [hthreads] at hi
        rcases Nat.lt_or_ge i done.length with hlt | hge
        · rw [List.getElem?_append_left hlt] at hi
          exact absurd (hended u (List.mem_of_getElem? hi)) hu
        · rw [List.getElem?_append_right hge, List.getElem?_singleton] at hi
          split_ifs at hi with hlast
          obtain rfl := Option.some.inj hi
          obtain rfl : i = done.length := by omega
          exact advance_oneByOne hthreads hended hphase hsends hchunks

lemma advance_cut (hsends : t.Sends) (hcut : ∀ f ∈ s.sent, f.Cut) (i : ℕ) : ∀ f ∈ (s.advance i t).sent, f.Cut := by
  rw [FileThread.Sends] at hsends
  rw [advance]
  rcases hp : t.phase with file | l | content | l | content | _ <;> rw [hp] at hsends
  case opening => cases file <;> exact hcut
  case testing =>
    dsimp only
    split_ifs <;> exact hcut
  case closing =>
    obtain ⟨n, hsent⟩ := hsends
    exact List.forall_mem_append.mpr ⟨hcut, List.forall_mem_singleton.mpr (hsent.cut t.interrupted)⟩
  all_goals exact hcut

lemma next_cut (hsends : ∀ t ∈ s.threads, t.Sends) (hcut : ∀ f ∈ s.sent, f.Cut) {a : Action} {s' : FileSender}
    (hnext : s.next a = some s') : ∀ f ∈ s'.sent, f.Cut := by
  cases a with
  | sendFileToClient sendThread file =>
    obtain rfl := Option.some.inj hnext
    cases sendThread <;> exact hcut
  | interruptFile => exact Option.some.inj hnext ▸ hcut
  | proceed i =>
    obtain rfl := Option.some.inj hnext
    rw [proceed]
    cases hi : s.threads[i]? with
    | none => exact hcut
    | some t => exact advance_cut (hsends t (List.mem_of_getElem? hi)) hcut i

lemma next_oneByOne (h : OneByOne s) {a : Action} (halone : Alone s a) {s' : FileSender} (hnext : s.next a = some s') :
    OneByOne s' := by
  cases a with
  | sendFileToClient sendThread file =>
    obtain rfl := Option.some.inj hnext
    cases sendThread with
    | false => exact sendFile_oneByOne h halone file
    | true =>
      refine sendFile_oneByOne (interrupt_oneByOne h) (fun u hu => ?_) file
      obtain ⟨t, ht, rfl⟩ := List.mem_map.mp hu
      exact halone t ht
  | interruptFile => exact Option.some.inj hnext ▸ interrupt_oneByOne h
  | proceed i => exact Option.some.inj hnext ▸ proceed_oneByOne h i

lemma reachable_oneByOne (h : Reachable Initial next Alone s) : OneByOne s ∧ ∀ f ∈ s.sent, f.Cut := by
  have hinv : OneByOne s ∧ (∀ t ∈ s.threads, t.Sends) ∧ ∀ f ∈ s.sent, f.Cut := by
    apply h.invariant
    · rintro _ rfl
      exact ⟨.resting (by simp) rfl, by simp, by simp⟩
    · rintro s a s' ⟨hone, hsends, hcut⟩ halone hnext
      exact ⟨next_oneByOne hone halone hnext, next_sends hsends hnext, next_cut hsends hcut hnext⟩
  exact ⟨hinv.1, hinv.2.2⟩

end OneByOne

section Receiver

variable (uninit : UInt64)

lemma files_cut {t : SentFile} (h : t.Cut) (hlt : t.content.length < 2 ^ 64) (a : FileAssembly)
    (chunks : List FileChunk) :
    ∃ b, FileChunk.files uninit a (t.chunks ++ chunks) =
      (if t.data = t.content then [t.content] else []) ++ FileChunk.files uninit b chunks := by
  obtain ⟨datas, hpre, hchunks⟩ := h
  have hwhole : t.content.length = datas.flatten.length ↔ datas.flatten = t.content :=
    ⟨fun heq => hpre.eq_of_length heq.symm, fun heq => congrArg List.length heq.symm⟩
  rw [SentFile.data_eq hchunks, hchunks, List.cons_append, List.append_assoc, FileChunk.files_start uninit a hlt,
    FileChunk.files_data, List.singleton_append, FileChunk.files_end]
  refine ⟨_, congrArg (· ++ _) ?_⟩
  simp only [List.nil_append, hwhole]
  split_ifs with heq
  · rw [heq]
  · rfl

lemma files_sent {sent : List SentFile} (h : ∀ t ∈ sent, t.Cut) (hlt : ∀ t ∈ sent, t.content.length < 2 ^ 64)
    (a : FileAssembly) (chunks : List FileChunk) :
    ∃ b, FileChunk.files uninit a (sent.flatMap SentFile.chunks ++ chunks) =
      ((sent.filter fun t => t.data = t.content).map SentFile.content) ++ FileChunk.files uninit b chunks := by
  induction sent generalizing a with
  | nil => exact ⟨a, rfl⟩
  | cons t sent ih =>
    obtain ⟨b, hfirst⟩ := files_cut uninit (h t List.mem_cons_self) (hlt t List.mem_cons_self) a
      (sent.flatMap SentFile.chunks ++ chunks)
    obtain ⟨c, hrest⟩ := ih (fun t' ht' => h t' (List.mem_cons_of_mem t ht'))
      (fun t' ht' => hlt t' (List.mem_cons_of_mem t ht')) b
    refine ⟨c, ?_⟩
    rw [List.flatMap_cons, List.append_assoc, hfirst, hrest]
    by_cases heq : t.data = t.content <;> simp [heq]

lemma files_hasSent {t : FileThread} {content : List UInt8} {n : ℕ} (h : t.HasSent content n)
    (hlt : content.length < 2 ^ 64) (a : FileAssembly) : FileChunk.files uninit a t.chunks = [] := by
  obtain ⟨datas, -, hevents⟩ := h
  have hdata := FileChunk.files_data uninit ⟨[], content.length⟩ datas []
  rw [FileThread.chunks, hevents, FileChunk.files_start uninit a hlt]
  rwa [List.append_nil] at hdata

def Phase.content? : Phase → Option (List UInt8)
  | .opening file => file
  | .testing l => some l.content
  | .clearing content => some content
  | .reading l => some l.content
  | .closing content => some content
  | .ended => none

lemma files_sends {t : FileThread} (h : t.Sends) (hphase : t.phase ≠ .ended)
    (hlt : ∀ content ∈ Phase.content? t.phase, content.length < 2 ^ 64) (a : FileAssembly) :
    FileChunk.files uninit a t.chunks = [] := by
  rw [FileThread.Sends] at h
  rcases hp : t.phase with file | l | content | l | content | _ <;> rw [hp] at h hlt
  case opening =>
    rw [FileThread.chunks, h.1]
    rfl
  case testing | reading => exact files_hasSent uninit h.1 (hlt l.content rfl) a
  case clearing | closing =>
    obtain ⟨n, hsent⟩ := h
    exact files_hasSent uninit hsent (hlt content rfl) a
  case ended => exact absurd hp hphase

/-- Where files are sent one after the other, and interrupted at any point, the receiver has reported those that were
sent in whole, in their order and with their data, and no others. -/
theorem files_chunks {s : FileSender} (h : Reachable Initial next Alone s)
    (hsent : ∀ f ∈ s.sent, f.content.length < 2 ^ 64)
    (hthreads : ∀ t ∈ s.threads, ∀ content ∈ Phase.content? t.phase, content.length < 2 ^ 64) (a : FileAssembly) :
    FileChunk.files uninit a s.chunks = (s.sent.filter fun f => f.data = f.content).map SentFile.content := by
  obtain ⟨hone, hcut⟩ := reachable_oneByOne h
  cases hone with
  | resting _ hchunks =>
    obtain ⟨b, hfiles⟩ := files_sent uninit hcut hsent a []
    rw [List.append_nil] at hfiles
    rw [hchunks, hfiles]
    exact List.append_nil _
  | sending done t hall _ hphase hsends hchunks =>
    obtain ⟨b, hfiles⟩ := files_sent uninit hcut hsent a t.chunks
    rw [hchunks, hfiles, files_sends uninit hsends hphase (hthreads t (by simp [hall])) b, List.append_nil]

instance (s : FileSender) : (a : Action) → Decidable (Alone s a)
  | .sendFileToClient _ _ => inferInstanceAs (Decidable (∀ t ∈ s.threads, _))
  | .proceed _ | .interruptFile => .isTrue trivial

theorem files_chunks_interrupted :
    ∃ s : FileSender, Reachable Initial next Alone s ∧ s.sent.map SentFile.data = [[], [104, 105]] ∧
      FileChunk.files 0 {} s.chunks = [[104, 105]] := by
  obtain ⟨s, hs, hdata, hwhole, hlength, hended⟩ : ∃ s : FileSender, Reachable Initial next Alone s ∧
      s.sent.map SentFile.data = [[], [104, 105]] ∧
      (s.sent.filter fun f => f.data = f.content).map SentFile.content = [[104, 105]] ∧
      (∀ f ∈ s.sent, f.content.length ≤ 2) ∧ ∀ t ∈ s.threads, t.phase = .ended :=
    Reachable.exists_of_run rfl [.sendFileToClient false (some [106]), .proceed 0, .interruptFile, .proceed 0,
      .proceed 0, .proceed 0, .sendFileToClient false (some [104, 105]), .proceed 1, .proceed 1, .proceed 1, .proceed 1]
      (by decide)
  refine ⟨s, hs, hdata, ?_⟩
  rw [files_chunks 0 hs (fun f hf => (hlength f hf).trans_lt (by decide))
    (fun t ht => by simp [hended t ht, Phase.content?]) {}, hwhole]

end Receiver

end FileSender

end StreamChunker

end InputLeap.Protocol
