import InputLeap.Lib.ByteQueue
import Mathlib.Algebra.Order.Group.Nat

/-! The buffer of a stream: bytes in a list of chunks, of which the first may be partly read. Its size and what is read
of the first chunk are counted in 32 bits, so it is a queue of bytes while fewer than `2 ^ 32` are in the chunks. -/

namespace InputLeap.Io

open InputLeap.Lib

abbrev Chunk := List UInt8

namespace StreamBuffer

def kChunkSize : ℕ := 4096

def consolidate (n headUsed : ℕ) : Chunk → List Chunk → List Chunk
  | head, [] => [head]
  | head, scan :: rest =>
    if head.length - headUsed < n then consolidate n headUsed (head ++ scan) rest
    else head :: scan :: rest

/-- The loop of `pop`. `m_headUsed` wraps around when `2 ^ 32` bytes of one chunk have been read, as a chunk may grow
to any size while it is read. -/
def discard (n headUsed : ℕ) : List Chunk → List Chunk × ℕ
  | [] => ([], headUsed)
  | scan :: rest =>
    if scan.length - headUsed ≤ n then discard (n - (scan.length - headUsed)) 0 rest
    else (scan :: rest, (headUsed + n) % 2 ^ 32)

/-- Append data in chunks, the first bytes to `scan`. Each pass but the last fills a chunk, so
`passes` is never exhausted before the data. -/
def fill : ℕ → Chunk → List UInt8 → List Chunk
  | 0, scan, data => [scan ++ data]
  | passes + 1, scan, data =>
    let count := min (kChunkSize - scan.length) data.length
    if data.length - count = 0 then [scan ++ data.take count]
    else (scan ++ data.take count) :: fill passes [] (data.drop count)

def append (chunks : List Chunk) (data : List UInt8) : List Chunk :=
  match chunks.getLast? with
  | none => fill data.length [] data
  | some last =>
    if kChunkSize ≤ last.length then chunks ++ fill data.length [] data
    else chunks.dropLast ++ fill data.length last data

/-- `m_headUsed` stays within the head chunk, and no chunk is empty. -/
def Valid (chunks : List Chunk) (headUsed : ℕ) : Prop :=
  (∀ c ∈ chunks, c ≠ []) ∧
    match chunks with
    | [] => headUsed = 0
    | head :: _ => headUsed < head.length

end StreamBuffer

open StreamBuffer in
@[ext]
structure StreamBuffer where
  chunks : List Chunk
  /-- A `uint32_t`, like the next. -/
  size : ℕ
  headUsed : ℕ
  valid : Valid chunks headUsed
  size_eq : size = (chunks.flatten.drop headUsed).length % 2 ^ 32

namespace StreamBuffer

def toList (b : StreamBuffer) : List UInt8 := b.chunks.flatten.drop b.headUsed

/-- The number of the bytes in the chunks, with those of the first one that have been read. -/
def stored (b : StreamBuffer) : ℕ := b.chunks.flatten.length

section Chunks

variable {n used : ℕ}

lemma Valid.drop_append {chunks : List Chunk} (hv : Valid chunks used) (data : List UInt8) :
    (chunks.flatten ++ data).drop used = chunks.flatten.drop used ++ data := by
  apply List.drop_append_of_le_length
  cases chunks with
  | nil => exact hv.2.le
  | cons head rest =>
    have hu : used < head.length := hv.2
    simp only [List.flatten_cons, List.length_append]
    omega

lemma consolidate_flatten (head : Chunk) (rest : List Chunk) :
    (consolidate n used head rest).flatten = head ++ rest.flatten := by
  induction rest generalizing head with
  | nil => simp [consolidate]
  | cons scan rest ih =>
    rw [consolidate]
    split_ifs
    · rw [ih, List.flatten_cons, List.append_assoc]
    · simp

lemma consolidate_valid {head : Chunk} {rest : List Chunk} (h : Valid (head :: rest) used) :
    Valid (consolidate n used head rest) used := by
  induction rest generalizing head with
  | nil => exact h
  | cons scan rest ih =>
    obtain ⟨hne, hu⟩ := h
    rw [consolidate]
    split_ifs
    · refine ih ⟨?_, by simp only [List.length_append]; omega⟩
      intro c hc
      rcases List.mem_cons.mp hc with rfl | hc
      · simp [hne head (by simp)]
      · exact hne c (by simp [hc])
    · exact ⟨hne, hu⟩

lemma consolidate_head (head : Chunk) (rest : List Chunk) (hu : used ≤ head.length)
    (hn : n ≤ ((head ++ rest.flatten).drop used).length) :
    (((consolidate n used head rest).headD []).drop used).take n =
      ((head ++ rest.flatten).drop used).take n := by
  induction rest generalizing head with
  | nil => simp [consolidate]
  | cons scan rest ih =>
    rw [consolidate]
    split_ifs with hlt
    · rw [ih (head ++ scan) (by simp only [List.length_append]; omega) (by simpa using hn)]
      simp
    · rw [List.headD_cons, List.drop_append_of_le_length hu,
        List.take_append_of_le_length (by rw [List.length_drop]; omega)]

lemma Valid.tail {scan : Chunk} {rest : List Chunk} (hv : Valid (scan :: rest) used) : Valid rest 0 := by
  refine ⟨fun c hc => hv.1 c (List.mem_cons_of_mem _ hc), ?_⟩
  cases rest with
  | nil => rfl
  | cons c rest => exact List.length_pos_iff.mpr (hv.1 c (by simp))

/-- What is left is counted right, also where `m_headUsed` has wrapped around. -/
lemma discard_valid {n used : ℕ} {chunks : List Chunk} (hv : Valid chunks used)
    (hn : n < (chunks.flatten.drop used).length) :
    Valid (discard n used chunks).1 (discard n used chunks).2 ∧
      ((discard n used chunks).1.flatten.drop (discard n used chunks).2).length % 2 ^ 32 =
        ((chunks.flatten.drop used).length - n) % 2 ^ 32 := by
  induction chunks generalizing n used with
  | nil => simp at hn
  | cons scan rest ih =>
    have hused : used < scan.length := hv.2
    have hlength : ((scan :: rest).flatten.drop used).length = scan.length + rest.flatten.length - used := by
      rw [List.flatten_cons, List.length_drop, List.length_append]
    rw [hlength] at hn ⊢
    rw [discard]
    split_ifs with hle
    · obtain ⟨hvalid, hleft⟩ := ih hv.tail (n := n - (scan.length - used)) (by rw [List.drop_zero]; omega)
      refine ⟨hvalid, hleft.trans ?_⟩
      rw [List.drop_zero]
      congr 1
      omega
    · refine ⟨⟨hv.1, ?_⟩, ?_⟩
      · exact (Nat.mod_le _ _).trans_lt (show used + n < scan.length by omega)
      · rw [List.flatten_cons, List.length_drop, List.length_append]
        omega

lemma discard_drop {n used : ℕ} {chunks : List Chunk} (hv : Valid chunks used)
    (hn : n < (chunks.flatten.drop used).length) (hstored : chunks.flatten.length < 2 ^ 32) :
    (discard n used chunks).1.flatten.drop (discard n used chunks).2 = chunks.flatten.drop (used + n) := by
  induction chunks generalizing n used with
  | nil => simp at hn
  | cons scan rest ih =>
    have hused : used < scan.length := hv.2
    rw [List.flatten_cons, List.length_append] at hstored
    rw [List.flatten_cons, List.length_drop, List.length_append] at hn
    rw [discard]
    split_ifs with hle
    · have hscan : scan.length ≤ used + n := by omega
      rw [ih hv.tail (by rw [List.drop_zero]; omega) (by omega), List.flatten_cons, List.drop_append,
        List.drop_eq_nil_of_le hscan, List.nil_append]
      congr 1
      omega
    · rw [Nat.mod_eq_of_lt (by omega)]

lemma discard_length_le (n used : ℕ) (chunks : List Chunk) :
    (discard n used chunks).1.flatten.length ≤ chunks.flatten.length := by
  induction chunks generalizing n used with
  | nil => rfl
  | cons scan rest ih =>
    rw [discard]
    split_ifs
    · rw [List.flatten_cons, List.length_append]
      exact (ih _ _).trans (Nat.le_add_left _ _)
    · rfl

lemma fill_flatten (passes : ℕ) (scan : Chunk) (data : List UInt8) :
    (fill passes scan data).flatten = scan ++ data := by
  induction passes generalizing scan data with
  | zero => simp [fill]
  | succ passes ih =>
    simp only [fill]
    split_ifs with hd
    · have : data.take (min (kChunkSize - scan.length) data.length) = data :=
        List.take_of_length_le (by omega)
      simp [this]
    · simp [ih]

lemma fill_ne_nil {passes : ℕ} {scan : Chunk} {data : List UInt8} (hs : scan.length < kChunkSize)
    (hd : data ≠ []) : ∀ c ∈ fill passes scan data, c ≠ [] := by
  have hpos : 0 < data.length := List.length_pos_iff.mpr hd
  induction passes generalizing scan data with
  | zero => simp [fill, hd]
  | succ passes ih =>
    have hcount : scan ++ data.take (min (kChunkSize - scan.length) data.length) ≠ [] := by
      rw [ne_eq, List.append_eq_nil_iff, List.take_eq_nil_iff]
      rintro ⟨-, h | h⟩
      · omega
      · exact hd h
    simp only [fill]
    split_ifs with hrest
    · simpa using hcount
    · have hdrop : data.drop (min (kChunkSize - scan.length) data.length) ≠ [] := by
        rw [ne_eq, List.drop_eq_nil_iff]
        omega
      rintro c (_ | ⟨_, hc⟩)
      · exact hcount
      · exact ih (by decide) hdrop (List.length_pos_iff.mpr hdrop) c hc

lemma append_flatten (chunks : List Chunk) (data : List UInt8) :
    (append chunks data).flatten = chunks.flatten ++ data := by
  rw [append]
  cases hl : chunks.getLast? with
  | none => simp [fill_flatten, List.getLast?_eq_none_iff.mp hl]
  | some last =>
    dsimp only
    split_ifs
    · simp [fill_flatten]
    · rw [List.flatten_append, fill_flatten, ← List.append_assoc]
      congr 1
      conv_rhs => rw [← List.dropLast_append_getLast? last hl]
      simp

lemma fill_head (passes : ℕ) (scan : Chunk) (data : List UInt8) :
    ∃ c rest, fill passes scan data = (scan ++ c) :: rest := by
  cases passes with
  | zero => exact ⟨data, [], rfl⟩
  | succ passes =>
    simp only [fill]
    split_ifs
    · exact ⟨_, _, rfl⟩
    · exact ⟨_, _, rfl⟩

lemma append_valid {chunks : List Chunk} {data : List UInt8} (hv : Valid chunks used)
    (hd : data ≠ []) : Valid (append chunks data) used := by
  obtain ⟨hne, hu⟩ := hv
  have hempty : ∀ c ∈ fill data.length [] data, c ≠ [] := fill_ne_nil (by decide) hd
  cases chunks with
  | nil =>
    obtain ⟨c, rest, hc⟩ := fill_head data.length [] data
    refine ⟨hempty, ?_⟩
    simp only [append, List.getLast?_nil, hc, hu]
    exact List.length_pos_iff.mpr (hempty _ (by simp [hc]))
  | cons head rest =>
    obtain ⟨last, hl⟩ : ∃ last, (head :: rest).getLast? = some last :=
      ⟨_, List.getLast?_eq_getLast_of_ne_nil (by simp)⟩
    simp only [append, hl]
    split_ifs with hfull
    · refine ⟨fun c hc => ?_, hu⟩
      rcases List.mem_append.mp hc with hc | hc
      · exact hne c hc
      · exact hempty c hc
    · refine ⟨fun c hc => ?_, ?_⟩
      · rcases List.mem_append.mp hc with hc | hc
        · exact hne c (List.dropLast_subset _ hc)
        · exact fill_ne_nil (by omega) hd c hc
      · cases rest with
        | nil =>
          obtain ⟨c, rest, hc⟩ := fill_head data.length last data
          obtain rfl : head = last := by simpa using hl
          simp only [List.dropLast_singleton, List.nil_append, hc, List.length_append]
          exact Nat.lt_add_right _ hu
        | cons c rest => exact hu

end Chunks

def getSize (b : StreamBuffer) : ℕ := b.size

def peek (b : StreamBuffer) (n : ℕ) : List UInt8 × StreamBuffer :=
  if n = 0 then ([], b)
  else
    match hc : b.chunks with
    | [] => ([], b)
    | head :: rest =>
      (((consolidate n b.headUsed head rest).headD []).drop b.headUsed |>.take n,
        { chunks := consolidate n b.headUsed head rest
          size := b.size
          headUsed := b.headUsed
          valid := consolidate_valid (hc ▸ b.valid)
          size_eq := by rw [consolidate_flatten, b.size_eq, hc, List.flatten_cons] })

def clear : StreamBuffer where
  chunks := []
  size := 0
  headUsed := 0
  valid := ⟨by simp, rfl⟩
  size_eq := rfl

def pop (b : StreamBuffer) (n : ℕ) : StreamBuffer :=
  if h : b.size ≤ n then clear
  else
    have hn : n < (b.chunks.flatten.drop b.headUsed).length := by
      have := Nat.mod_le (b.chunks.flatten.drop b.headUsed).length (2 ^ 32)
      rw [← b.size_eq] at this
      omega
    { chunks := (discard n b.headUsed b.chunks).1
      size := b.size - n
      headUsed := (discard n b.headUsed b.chunks).2
      valid := (discard_valid b.valid hn).1
      size_eq := by
        have := b.size_eq
        rw [(discard_valid b.valid hn).2]
        omega }

def write (b : StreamBuffer) (data : List UInt8) : StreamBuffer :=
  if h : data = [] then b
  else
    { chunks := append b.chunks data
      size := (b.size + data.length) % 2 ^ 32
      headUsed := b.headUsed
      valid := append_valid b.valid h
      size_eq := by
        rw [append_flatten, b.valid.drop_append, List.length_append, b.size_eq]
        omega }

instance : ByteQueue StreamBuffer where
  empty := clear
  getSize := getSize
  peek := peek
  pop := pop
  write := write

def held (b : StreamBuffer) : ByteQueue.Counted (2 ^ 32) := ⟨b.toList⟩

lemma peek_fst (b : StreamBuffer) {n : ℕ} (hn : n ≤ b.toList.length) :
    (b.peek n).1 = b.toList.take n := by
  rw [peek]
  split_ifs with h0
  · simp [h0]
  · split
    · rename_i hc
      simp [toList, hc]
    · rename_i head rest hc
      have hv : Valid (head :: rest) b.headUsed := hc ▸ b.valid
      simp only [toList, hc, List.flatten_cons] at hn ⊢
      exact consolidate_head head rest hv.2.le hn

lemma toList_peek (b : StreamBuffer) (n : ℕ) : (b.peek n).2.toList = b.toList := by
  rw [peek]
  split_ifs with h0
  · rfl
  · split
    · rfl
    · rename_i head rest hc
      simp [toList, consolidate_flatten, hc]

lemma pop_all {b : StreamBuffer} {n : ℕ} (h : b.getSize ≤ n) : b.pop n = clear := dif_pos h

lemma toList_pop {b : StreamBuffer} (hstored : b.stored < 2 ^ 32) (n : ℕ) :
    (b.pop n).toList = if b.toList.length % 2 ^ 32 ≤ n then [] else b.toList.drop n := by
  have hs : b.toList.length % 2 ^ 32 = b.size := b.size_eq.symm
  rw [pop, hs]
  split_ifs with h
  · rfl
  · have hn : n < (b.chunks.flatten.drop b.headUsed).length := by
      have := Nat.mod_le (b.chunks.flatten.drop b.headUsed).length (2 ^ 32)
      rw [← b.size_eq] at this
      omega
    apply (discard_drop b.valid hn hstored).trans
    rw [toList, List.drop_drop]

lemma toList_write (b : StreamBuffer) (data : List UInt8) :
    (b.write data).toList = b.toList ++ data := by
  rw [write]
  split_ifs with h
  · simp [h]
  · simp only [toList, append_flatten, b.valid.drop_append]

lemma toList_length_le (b : StreamBuffer) : b.toList.length ≤ b.stored := by
  rw [toList, List.length_drop]
  exact Nat.sub_le _ _

lemma stored_of_empty {b : StreamBuffer} (h : b.toList = []) : b.stored = 0 := by
  have hv := b.valid
  rw [toList, List.drop_eq_nil_iff] at h
  cases hc : b.chunks with
  | nil => rw [stored, hc, List.flatten_nil, List.length_nil]
  | cons head rest =>
    rw [hc] at hv h
    have hused : b.headUsed < head.length := hv.2
    rw [List.flatten_cons, List.length_append] at h
    omega

lemma stored_peek (b : StreamBuffer) (n : ℕ) : (b.peek n).2.stored = b.stored := by
  rw [peek]
  split_ifs
  · rfl
  · split
    · rfl
    · rename_i head rest hc
      simp only [stored, consolidate_flatten, hc, List.flatten_cons]

lemma stored_pop_le (b : StreamBuffer) (n : ℕ) : (b.pop n).stored ≤ b.stored := by
  rw [pop]
  split_ifs
  · exact Nat.zero_le _
  · exact discard_length_le _ _ _

lemma stored_write (b : StreamBuffer) (data : List UInt8) : (b.write data).stored = b.stored + data.length := by
  rw [write]
  split_ifs with h
  · simp [h]
  · simp only [stored, append_flatten, List.length_append]

theorem held_hom : ByteQueue.Hom stored (2 ^ 32) held where
  empty := rfl
  getSize b := b.size_eq.symm
  peek_fst b n h := by
    refine (peek_fst b (h.trans ?_)).symm
    exact b.size_eq.le.trans (Nat.mod_le _ _)
  peek_snd b n := congrArg ByteQueue.Counted.mk (toList_peek b n)
  pop {b} h n := by
    rw [ByteQueue.Counted.ext_iff]
    apply (toList_pop h n).trans
    rw [ByteQueue.Counted.pop_def, apply_ite ByteQueue.Counted.bytes]
    rfl
  write b data := congrArg ByteQueue.Counted.mk (toList_write b data)
  held_peek := stored_peek
  held_pop := stored_pop_le
  held_write := stored_write

end StreamBuffer

end InputLeap.Io
