import InputLeap.Io.StreamBuffer

/-! The buffer of a stream as it computes: in words of 32 and 64 bits that may wrap around, and with chunks that may be
missing or too short. While fewer than `2 ^ 32` bytes are held in the chunks, nothing wraps around, nothing is missing,
and the buffer is a queue of bytes. -/

namespace InputLeap.Io

open StreamBuffer

def wordSub (width a b : ℕ) : ℕ := (a + (2 ^ width - b % 2 ^ width)) % 2 ^ width

lemma wordSub_of_le {width a b : ℕ} (hle : b ≤ a) (ha : a < 2 ^ width) : wordSub width a b = a - b := by
  rw [wordSub, Nat.mod_eq_of_lt (hle.trans_lt ha)]
  have hsum : a + (2 ^ width - b) = a - b + 2 ^ width := by omega
  rw [hsum, Nat.add_mod_right, Nat.mod_eq_of_lt ((Nat.sub_le a b).trans_lt ha)]

@[ext]
structure BufferFields where
  chunks : List Chunk
  size : ℕ
  headUsed : ℕ
deriving DecidableEq

namespace BufferFields

def init : BufferFields := ⟨[], 0, 0⟩

def consolidate (n headUsed : ℕ) : Chunk → List Chunk → List Chunk
  | head, [] => [head]
  | head, scan :: rest =>
    if wordSub 64 head.length headUsed < n then consolidate n headUsed (head ++ scan) rest else head :: scan :: rest

/-- The bytes from `m_headUsed` on, if there are `n` of them in the first chunk. -/
def peek (b : BufferFields) (n : ℕ) : Option (List UInt8 × BufferFields) :=
  if n = 0 then some ([], b)
  else
    match b.chunks with
    | [] => none
    | head :: rest =>
      let chunks := consolidate n b.headUsed head rest
      let head := chunks.headD []
      if b.headUsed + n ≤ head.length then some ((head.drop b.headUsed).take n, { b with chunks := chunks })
      else none

/-- The loop of `pop`, in which a chunk must always be left. -/
def discard (n headUsed : ℕ) : List Chunk → Option (List Chunk × ℕ)
  | [] => none
  | scan :: rest =>
    if wordSub 64 scan.length headUsed ≤ n then
      discard (wordSub 32 n (wordSub 32 (scan.length % 2 ^ 32) headUsed)) 0 rest
    else some (scan :: rest, (headUsed + n) % 2 ^ 32)

def pop (b : BufferFields) (n : ℕ) : Option BufferFields :=
  if b.size ≤ n then some init
  else (discard n b.headUsed b.chunks).map fun d => ⟨d.1, wordSub 32 b.size n, d.2⟩

/-- The loop of `write`. A chunk must not be larger than `kChunkSize`, and the passes must be enough. -/
def fill : ℕ → Chunk → List UInt8 → Option (List Chunk)
  | 0, _, _ => none
  | passes + 1, scan, data =>
    if kChunkSize < scan.length then none
    else
      let count := min (wordSub 32 kChunkSize scan.length) data.length
      if data.length - count = 0 then some [scan ++ data.take count]
      else (fill passes [] (data.drop count)).map fun chunks => (scan ++ data.take count) :: chunks

def append (chunks : List Chunk) (data : List UInt8) : Option (List Chunk) :=
  match chunks.getLast? with
  | none => fill data.length [] data
  | some last =>
    if kChunkSize ≤ last.length then (fill data.length [] data).map fun more => chunks ++ more
    else (fill data.length last data).map fun more => chunks.dropLast ++ more

def write (b : BufferFields) (data : List UInt8) : Option BufferFields :=
  if data = [] then some b
  else (append b.chunks data).map fun chunks => { b with chunks := chunks, size := (b.size + data.length) % 2 ^ 32 }

/-- The bytes in the chunks, with those that are used up of the first one. -/
def held (b : BufferFields) : ℕ := b.chunks.flatten.length

def unread (b : BufferFields) : List UInt8 := b.chunks.flatten.drop b.headUsed

end BufferFields

def StreamBuffer.fields (b : StreamBuffer) : BufferFields := ⟨b.chunks, b.size, b.headUsed⟩

section Accesses

variable {n used : ℕ} {head : Chunk} {rest chunks : List Chunk} {data : List UInt8}

lemma consolidate_fields (hused : used ≤ head.length) (hheld : (head ++ rest.flatten).length < 2 ^ 32) :
    BufferFields.consolidate n used head rest = consolidate n used head rest := by
  induction rest generalizing head with
  | nil => rfl
  | cons scan rest ih =>
    rw [List.length_append] at hheld
    rw [BufferFields.consolidate, consolidate, wordSub_of_le hused (by omega),
      ih (by simp; omega) (by simpa using hheld)]

lemma consolidate_length (hused : used ≤ head.length) (hn : used + n ≤ (head ++ rest.flatten).length) :
    used + n ≤ ((consolidate n used head rest).headD []).length := by
  induction rest generalizing head with
  | nil => simpa [consolidate] using hn
  | cons scan rest ih =>
    rw [consolidate]
    split_ifs with hless
    · exact ih (by simp; omega) (by simpa using hn)
    · rw [List.headD_cons]
      omega

lemma discard_fields (hv : Valid chunks used) (hn : n < (chunks.flatten.drop used).length)
    (hheld : chunks.flatten.length < 2 ^ 32) : BufferFields.discard n used chunks = some (discard n used chunks) := by
  induction chunks generalizing n used with
  | nil => simp at hn
  | cons scan rest ih =>
    have hused : used < scan.length := hv.2
    simp only [List.flatten_cons, List.length_drop, List.length_append] at hn hheld
    rw [BufferFields.discard, StreamBuffer.discard.eq_def, wordSub_of_le hused.le (by omega)]
    dsimp only
    split_ifs with hle
    · rw [Nat.mod_eq_of_lt (by omega), wordSub_of_le hused.le (by omega), wordSub_of_le hle (by omega)]
      exact ih hv.tail (by rw [List.drop_zero]; omega) (by omega)
    · rfl

lemma fill_fields {passes : ℕ} {scan : Chunk} (hscan : scan.length < kChunkSize) (hpasses : data.length ≤ passes)
    (hpos : 0 < data.length) : BufferFields.fill passes scan data = some (fill passes scan data) := by
  induction passes generalizing scan data with
  | zero => omega
  | succ passes ih =>
    have hsub : wordSub 32 kChunkSize scan.length = kChunkSize - scan.length := wordSub_of_le hscan.le (by decide)
    rw [BufferFields.fill, fill, if_neg (Nat.not_lt.mpr hscan.le), hsub]
    dsimp only
    split_ifs with hlast
    · rfl
    · rw [ih (by decide) (by simp; omega) (by simp; omega), Option.map_some]

lemma append_fields (hdata : data ≠ []) : BufferFields.append chunks data = some (append chunks data) := by
  have hpos : 0 < data.length := List.length_pos_iff.mpr hdata
  rw [BufferFields.append, append]
  cases chunks.getLast? with
  | none => exact fill_fields (by decide) le_rfl hpos
  | some last =>
    dsimp only
    split_ifs with hfull
    · rw [fill_fields (by decide) le_rfl hpos, Option.map_some]
    · rw [fill_fields (Nat.not_le.mp hfull) le_rfl hpos, Option.map_some]

end Accesses

namespace StreamBuffer

variable {b : StreamBuffer} {n : ℕ}

lemma size_of_held (h : b.fields.held < 2 ^ 32) : b.size = b.toList.length := by
  rw [b.size_eq]
  exact Nat.mod_eq_of_lt (b.toList_length_le.trans_lt h)

lemma peek_cons {head : Chunk} {rest : List Chunk} (hc : b.chunks = head :: rest) (hn : n ≠ 0) :
    (b.peek n).1 = (((consolidate n b.headUsed head rest).headD []).drop b.headUsed).take n ∧
      (b.peek n).2.fields = ⟨consolidate n b.headUsed head rest, b.size, b.headUsed⟩ := by
  rw [peek, if_neg hn]
  split
  · rename_i hc'
    simp [hc] at hc'
  · rename_i hc'
    rw [hc] at hc'
    obtain ⟨rfl, rfl⟩ := List.cons.inj hc'
    exact ⟨rfl, rfl⟩

lemma fields_peek (h : b.fields.held < 2 ^ 32) (hn : n ≤ b.toList.length) :
    b.fields.peek n = some ((b.peek n).1, (b.peek n).2.fields) := by
  by_cases hzero : n = 0
  · rw [BufferFields.peek, peek, if_pos hzero, if_pos hzero]
  · have hfields : b.fields.chunks = b.chunks := rfl
    rw [BufferFields.peek, if_neg hzero, hfields]
    cases hc : b.chunks with
    | nil =>
      rw [toList, hc] at hn
      exact absurd (Nat.le_zero.mp (by simpa using hn)) hzero
    | cons head rest =>
      have hv : Valid (head :: rest) b.headUsed := hc ▸ b.valid
      have hused : b.headUsed < head.length := hv.2
      rw [BufferFields.held, hfields, hc, List.flatten_cons] at h
      rw [toList, hc, List.flatten_cons, List.length_drop, List.length_append] at hn
      obtain ⟨hbytes, hsame⟩ := peek_cons hc hzero
      rw [hbytes, hsame]
      have hbound : b.headUsed + n ≤ (head ++ rest.flatten).length := by
        rw [List.length_append]
        omega
      have hfirst := consolidate_length hused.le hbound
      have hmerged : BufferFields.consolidate n b.fields.headUsed head rest = consolidate n b.headUsed head rest :=
        consolidate_fields hused.le h
      dsimp only
      rw [hmerged]
      exact if_pos hfirst

lemma fields_pop (h : b.fields.held < 2 ^ 32) (n : ℕ) : b.fields.pop n = some (b.pop n).fields := by
  have hsize := size_of_held h
  have hlt : b.size < 2 ^ 32 := by
    rw [b.size_eq]
    exact Nat.mod_lt _ (by decide)
  rw [BufferFields.pop, pop]
  by_cases hall : b.size ≤ n
  · rw [dif_pos hall]
    exact if_pos hall
  · have hn : n < b.toList.length := by omega
    have hdiscard : BufferFields.discard n b.fields.headUsed b.fields.chunks = some (discard n b.headUsed b.chunks) :=
      discard_fields b.valid hn h
    have hsub : wordSub 32 b.fields.size n = b.size - n := wordSub_of_le (Nat.le_of_not_le hall) hlt
    rw [dif_neg hall, hdiscard, hsub]
    exact if_neg hall

lemma fields_write (b : StreamBuffer) (data : List UInt8) : b.fields.write data = some (b.write data).fields := by
  rw [BufferFields.write, write]
  by_cases hdata : data = []
  · rw [dif_pos hdata, if_pos hdata]
  · have happend : BufferFields.append b.fields.chunks data = some (append b.chunks data) := append_fields hdata
    rw [dif_neg hdata, if_neg hdata, happend, Option.map_some]
    rfl

end StreamBuffer

section Runs

inductive BufferOp
  | write (data : List UInt8)
  | peek (n : ℕ)
  | pop (n : ℕ)
  | getSize
deriving DecidableEq

inductive BufferReply
  | done
  | bytes (data : List UInt8)
  | size (n : ℕ)
deriving DecidableEq

def BufferFields.step (b : BufferFields) : BufferOp → Option (BufferReply × BufferFields)
  | .write data => (b.write data).map fun b => (.done, b)
  | .peek n => (b.peek n).map fun p => (.bytes p.1, p.2)
  | .pop n => (b.pop n).map fun b => (.done, b)
  | .getSize => some (.size b.size, b)

def BufferFields.run (b : BufferFields) : List BufferOp → Option (List BufferReply × BufferFields)
  | [] => some ([], b)
  | op :: ops => (b.step op).bind fun p => (p.2.run ops).map fun q => (p.1 :: q.1, q.2)

def queueStep (q : List UInt8) : BufferOp → BufferReply × List UInt8
  | .write data => (.done, q ++ data)
  | .peek n => (.bytes (q.take n), q)
  | .pop n => (.done, q.drop n)
  | .getSize => (.size q.length, q)

def queueRun (q : List UInt8) : List BufferOp → List BufferReply × List UInt8
  | [] => ([], q)
  | op :: ops => ((queueStep q op).1 :: (queueRun (queueStep q op).2 ops).1, (queueRun (queueStep q op).2 ops).2)

def Legal (q : List UInt8) : BufferOp → Prop
  | .peek n => n ≤ q.length
  | _ => True

def LegalRun (q : List UInt8) : List BufferOp → Prop
  | [] => True
  | op :: ops => Legal q op ∧ LegalRun (queueStep q op).2 ops

lemma StreamBuffer.fields_step {b : StreamBuffer} (h : b.fields.held < 2 ^ 32) {op : BufferOp} (hop : Legal b.toList op) :
    ∃ c : StreamBuffer, b.fields.step op = some ((queueStep b.toList op).1, c.fields) ∧
      c.toList = (queueStep b.toList op).2 := by
  have hsize := size_of_held h
  cases op with
  | write data =>
    refine ⟨b.write data, ?_, b.toList_write data⟩
    rw [BufferFields.step, b.fields_write data]
    rfl
  | peek n =>
    refine ⟨(b.peek n).2, ?_, b.toList_peek n⟩
    rw [BufferFields.step, fields_peek h hop, b.peek_fst hop]
    rfl
  | pop n =>
    refine ⟨b.pop n, ?_, ?_⟩
    · rw [BufferFields.step, fields_pop h]
      rfl
    · have hmod : b.toList.length % 2 ^ 32 = b.toList.length := b.size_eq.symm.trans hsize
      rw [toList_pop h, hmod]
      exact ite_eq_right_iff.mpr fun hn => (List.drop_eq_nil_of_le hn).symm
  | getSize =>
    have hfield : b.fields.size = b.toList.length := hsize
    refine ⟨b, ?_, rfl⟩
    rw [BufferFields.step, hfield]
    rfl

lemma StreamBuffer.fields_run {b : StreamBuffer} {ops : List BufferOp} (hops : LegalRun b.toList ops)
    (hheld : ∀ k replies c, b.fields.run (ops.take k) = some (replies, c) → c.held < 2 ^ 32) :
    ∃ c : StreamBuffer, b.fields.run ops = some ((queueRun b.toList ops).1, c.fields) ∧
      c.toList = (queueRun b.toList ops).2 := by
  induction ops generalizing b with
  | nil => exact ⟨b, rfl, rfl⟩
  | cons op ops ih =>
    obtain ⟨c, hstep, hc⟩ := fields_step (hheld 0 [] b.fields rfl) hops.1
    have hrun (os : List BufferOp) : b.fields.run (op :: os) =
        (c.fields.run os).map fun q => ((queueStep b.toList op).1 :: q.1, q.2) := by
      rw [BufferFields.run, hstep, Option.bind_some]
    obtain ⟨d, hd, hlast⟩ := ih (b := c) (by rw [hc]; exact hops.2) fun k replies e he => by
      apply hheld (k + 1) ((queueStep b.toList op).1 :: replies) e
      rw [List.take_succ_cons, hrun, he, Option.map_some]
    refine ⟨d, ?_, ?_⟩
    · rw [hrun, hd, Option.map_some, queueRun, hc]
    · rw [hlast, hc, queueRun]

lemma StreamBuffer.size_of_run {b c : StreamBuffer} {ops : List BufferOp} {replies : List BufferReply}
    (hheld : ∀ k replies c, b.fields.run (ops.take k) = some (replies, c) → c.held < 2 ^ 32)
    (hrun : b.fields.run ops = some (replies, c.fields)) : c.size = c.toList.length := by
  apply size_of_held
  apply hheld ops.length replies
  rwa [List.take_length]

/-- While fewer than `2 ^ 32` bytes are held, every access finds what it needs, and the buffer replies as a queue of
bytes: its unread bytes are those of the queue, `m_size` is their number, and `m_headUsed` is within the first chunk. -/
theorem run_is_queue {ops : List BufferOp} (hops : LegalRun [] ops)
    (hheld : ∀ k replies b, BufferFields.init.run (ops.take k) = some (replies, b) → b.held < 2 ^ 32) :
    ∃ b : BufferFields, BufferFields.init.run ops = some ((queueRun [] ops).1, b) ∧
      b.unread = (queueRun [] ops).2 ∧ b.size = b.unread.length ∧ Valid b.chunks b.headUsed := by
  obtain ⟨b, hrun, hlist⟩ := StreamBuffer.fields_run (b := .clear) hops hheld
  exact ⟨b.fields, hrun, hlist, StreamBuffer.size_of_run (b := .clear) hheld hrun, b.valid⟩

def sampleOps : List BufferOp := [.write [7, 8, 9], .pop 1, .write [10], .peek 3]

lemma sampleOps_held : ((List.range 5).all fun k =>
    (BufferFields.init.run (sampleOps.take k)).all fun p => decide (p.2.held < 2 ^ 32)) = true := by
  decide

theorem run_sampleOps : ∃ b : BufferFields,
    BufferFields.init.run sampleOps = some ((queueRun [] sampleOps).1, b) ∧ b.unread = (queueRun [] sampleOps).2 ∧
      b.size = b.unread.length ∧ Valid b.chunks b.headUsed := by
  apply run_is_queue
  · simp [LegalRun, sampleOps, Legal, queueStep]
  · intro k replies b hrun
    have hcut : sampleOps.take k = sampleOps.take (min k 4) := by
      rw [← List.take_take]
      rfl
    have hall := List.all_eq_true.mp sampleOps_held (min k 4) (List.mem_range.mpr (by omega))
    rw [← hcut, hrun, Option.all_some] at hall
    exact of_decide_eq_true hall

end Runs

section Wrapped

/-- Fewer than `2 ^ 32` bytes are unread at any time. -/
def CountedRun : List UInt8 → List BufferOp → Prop
  | q, [] => q.length < 2 ^ 32
  | q, op :: ops => q.length < 2 ^ 32 ∧ CountedRun (queueStep q op).2 ops

lemma BufferFields.run_append (b : BufferFields) (ops more : List BufferOp) :
    b.run (ops ++ more) = (b.run ops).bind fun p => (p.2.run more).map fun q => (p.1 ++ q.1, q.2) := by
  induction ops generalizing b with
  | nil => cases h : b.run more <;> simp [BufferFields.run, h]
  | cons op ops ih =>
    rw [List.cons_append, BufferFields.run, BufferFields.run]
    cases b.step op with
    | none => rfl
    | some p =>
      rw [Option.bind_some, Option.bind_some, ih]
      cases hrun : p.2.run ops with
      | none => rfl
      | some r => cases hmore : r.2.run more <;> simp [hmore]

lemma queueRun_append (q : List UInt8) (ops more : List BufferOp) :
    queueRun q (ops ++ more) =
      ((queueRun q ops).1 ++ (queueRun (queueRun q ops).2 more).1, (queueRun (queueRun q ops).2 more).2) := by
  induction ops generalizing q with
  | nil => rfl
  | cons op ops ih => simp only [List.cons_append, queueRun, ih]

lemma legalRun_append {q : List UInt8} {ops more : List BufferOp} (h : LegalRun q ops)
    (hmore : LegalRun (queueRun q ops).2 more) : LegalRun q (ops ++ more) := by
  induction ops generalizing q with
  | nil => exact hmore
  | cons op ops ih => exact ⟨h.1, ih h.2 hmore⟩

lemma countedRun_append {q : List UInt8} {ops more : List BufferOp} (h : CountedRun q ops)
    (hmore : CountedRun (queueRun q ops).2 more) : CountedRun q (ops ++ more) := by
  induction ops generalizing q with
  | nil => exact hmore
  | cons op ops ih => exact ⟨h.1, ih h.2 hmore⟩

/-- Two bytes are peeked at, for which they come to be in the same chunk, and the first is popped. -/
def turn : List BufferOp := [.write [0], .peek 2, .pop 1]

def turns : ℕ → List BufferOp
  | 0 => [.write [7]]
  | k + 1 => turns k ++ turn

def grown (k : ℕ) : Chunk := 7 :: List.replicate k 0

lemma grown_length (k : ℕ) : (grown k).length = k + 1 := by
  rw [grown, List.length_cons, List.length_replicate]

lemma grown_append (k : ℕ) : grown k ++ [0] = grown (k + 1) := by
  rw [grown, grown, List.cons_append, List.replicate_succ']

lemma write_grown (k used : ℕ) : ∃ chunks, (⟨[grown k], 1, used⟩ : BufferFields).write [0] = some ⟨chunks, 2, used⟩ ∧
    (chunks = [grown k, [0]] ∨ chunks = [grown (k + 1)]) := by
  refine ⟨append [grown k] [0], ?_, ?_⟩
  · rw [BufferFields.write, if_neg (by simp), append_fields (by simp)]
    rfl
  · rw [append, List.getLast?_singleton]
    dsimp only
    split_ifs with hfull
    · exact .inl rfl
    · refine .inr ?_
      have hcount : min (kChunkSize - (grown k).length) 1 = 1 := by omega
      simp only [List.length_singleton, fill, hcount, Nat.sub_self, if_true, List.take_succ_cons, List.take_zero]
      rw [List.dropLast_singleton, List.nil_append, grown_append]

variable {k : ℕ}

lemma peek_grown (hk : k < 2 ^ 32) {chunks : List Chunk} (h : chunks = [grown k, [0]] ∨ chunks = [grown (k + 1)]) :
    ∃ bytes, (⟨chunks, 2, k⟩ : BufferFields).peek 2 = some (bytes, ⟨[grown (k + 1)], 2, k⟩) := by
  have hlength := grown_length (k + 1)
  refine ⟨((grown (k + 1)).drop k).take 2, ?_⟩
  have hmerged : ∃ head rest, chunks = head :: rest ∧ BufferFields.consolidate 2 k head rest = [grown (k + 1)] := by
    rcases h with rfl | rfl
    · refine ⟨grown k, [[0]], rfl, ?_⟩
      have hone : wordSub 64 (grown k).length k = 1 := by
        rw [grown_length, wordSub_of_le (by omega) (by omega)]
        omega
      rw [BufferFields.consolidate, hone, if_pos (by omega), grown_append]
      rfl
    · exact ⟨grown (k + 1), [], rfl, rfl⟩
  obtain ⟨head, rest, rfl, hmerged⟩ := hmerged
  rw [BufferFields.peek, if_neg (by omega)]
  simp only [hmerged, List.headD_cons]
  rw [if_pos (by omega)]

lemma pop_grown (hk : k < 2 ^ 32) :
    (⟨[grown (k + 1)], 2, k⟩ : BufferFields).pop 1 = some ⟨[grown (k + 1)], 1, (k + 1) % 2 ^ 32⟩ := by
  have htwo : wordSub 64 (grown (k + 1)).length k = 2 := by
    rw [grown_length, wordSub_of_le (by omega) (by omega)]
    omega
  have hdiscard : BufferFields.discard 1 k [grown (k + 1)] = some ([grown (k + 1)], (k + 1) % 2 ^ 32) := by
    rw [BufferFields.discard, htwo, if_neg (by omega)]
  have hsize : wordSub 32 2 1 = 1 := by decide
  rw [BufferFields.pop, if_neg (by decide : ¬ 2 ≤ 1)]
  simp only [hdiscard, hsize, Option.map_some]

lemma run_turn (hk : k < 2 ^ 32) : ∃ replies,
    (⟨[grown k], 1, k⟩ : BufferFields).run turn = some (replies, ⟨[grown (k + 1)], 1, (k + 1) % 2 ^ 32⟩) := by
  obtain ⟨chunks, hwrite, hchunks⟩ := write_grown k k
  obtain ⟨bytes, hpeek⟩ := peek_grown hk hchunks
  refine ⟨[.done, .bytes bytes, .done], ?_⟩
  simp only [turn, BufferFields.run, BufferFields.step, hwrite, hpeek, pop_grown hk, Option.map_some, Option.bind_some]

lemma run_turns (hk : k ≤ 2 ^ 32) : ∃ replies,
    BufferFields.init.run (turns k) = some (replies, ⟨[grown k], 1, k % 2 ^ 32⟩) := by
  induction k with
  | zero => exact ⟨[.done], by decide⟩
  | succ k ih =>
    obtain ⟨replies, hrun⟩ := ih (by omega)
    obtain ⟨more, hturn⟩ := run_turn (k := k) (by omega)
    rw [Nat.mod_eq_of_lt (by omega)] at hrun
    exact ⟨replies ++ more, by rw [turns, BufferFields.run_append, hrun, Option.bind_some, hturn, Option.map_some]⟩

lemma queueRun_turns (k : ℕ) : ∃ x, (queueRun [] (turns k)).2 = [x] ∧ (k ≠ 0 → x = 0) := by
  induction k with
  | zero => exact ⟨7, rfl, fun h => absurd rfl h⟩
  | succ k ih =>
    obtain ⟨x, hx, -⟩ := ih
    refine ⟨0, ?_, fun _ => rfl⟩
    rw [turns, queueRun_append, hx]
    rfl

lemma turns_legal (k : ℕ) : LegalRun [] (turns k) ∧ CountedRun [] (turns k) := by
  induction k with
  | zero => exact ⟨⟨trivial, trivial⟩, by simp [turns, CountedRun, queueStep]⟩
  | succ k ih =>
    obtain ⟨x, hx, -⟩ := queueRun_turns k
    have hlegal : LegalRun [x] turn := by simp [turn, LegalRun, Legal, queueStep]
    have hcounted : CountedRun [x] turn := by simp [turn, CountedRun, queueStep]
    exact ⟨legalRun_append ih.1 (hx ▸ hlegal), countedRun_append ih.2 (hx ▸ hcounted)⟩

/-- The first chunk is never used up. When `2 ^ 32` bytes of it have been popped, the first of them is peeked at again. -/
theorem run_popped_again : ¬ ∀ ops : List BufferOp, LegalRun [] ops → CountedRun [] ops →
    ∃ b : BufferFields, BufferFields.init.run ops = some ((queueRun [] ops).1, b) ∧
      b.unread = (queueRun [] ops).2 ∧ b.size = b.unread.length ∧ Valid b.chunks b.headUsed := by
  intro hall
  obtain ⟨n, hn⟩ : ∃ n, n = 2 ^ 32 := ⟨_, rfl⟩
  obtain ⟨hlegal, hcounted⟩ := turns_legal n
  obtain ⟨x, hx, hzero⟩ := queueRun_turns n
  obtain rfl := hzero (by omega)
  have hpeek : LegalRun [0] [.peek 1] ∧ CountedRun [0] [.peek 1] := by simp [LegalRun, Legal, CountedRun, queueStep]
  obtain ⟨b, hb, -⟩ := hall _ (legalRun_append hlegal (hx ▸ hpeek.1)) (countedRun_append hcounted (hx ▸ hpeek.2))
  obtain ⟨replies, hrun⟩ := run_turns hn.le
  have hwrapped : n % 2 ^ 32 = 0 := by rw [hn, Nat.mod_self]
  have hagain : (⟨[grown n], 1, 0⟩ : BufferFields).run [.peek 1] = some ([.bytes [7]], ⟨[grown n], 1, 0⟩) := by
    simp [BufferFields.run, BufferFields.step, BufferFields.peek, BufferFields.consolidate, grown]
  rw [BufferFields.run_append, hrun, hwrapped, Option.bind_some, hagain, Option.map_some, queueRun_append, hx] at hb
  have hlast : [BufferReply.bytes [7]] = [.bytes [0]] :=
    List.append_inj_right' (congrArg Prod.fst (Option.some.inj hb)) rfl
  exact absurd hlast (by decide)

end Wrapped

end InputLeap.Io
