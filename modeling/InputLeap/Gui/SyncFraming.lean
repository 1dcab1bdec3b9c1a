import InputLeap.Lib.Lines
import InputLeap.Lib.Reachable

/-! What is read from a peer is handed over by lines. The limit is on all that is in the buffer, so that a peer is also
dropped for several short lines that arrive at once. -/

namespace InputLeap.Gui

open InputLeap.Lib

namespace SyncService

def kMaxLineBytes : ℕ := 1024 * 1024

def newline : UInt8 := 10

structure Reading where
  buffer : List UInt8
  lines : List (List UInt8)
  oversized : Bool
  connected : Bool
  deriving DecidableEq

def Reading.start : Reading := ⟨[], [], false, true⟩

section Read

-- whether the peer is still there when these lines have been handled
variable (keeps : List (List UInt8) → Bool)

def hand (r : Reading) (line : List UInt8) : Reading :=
  { r with lines := r.lines ++ [line], connected := keeps (r.lines ++ [line]) }

def onReadyRead (r : Reading) (chunk : List UInt8) : Reading :=
  let buffer := r.buffer ++ chunk
  if kMaxLineBytes < buffer.length then { r with buffer := buffer, oversized := true, connected := false }
  else
    let drained := Lines.drain newline Reading.connected (hand keeps) buffer.length buffer r
    { drained.2 with buffer := drained.1 }

def read (r : Reading) (chunk : List UInt8) : Reading := if r.connected then onReadyRead keeps r chunk else r

def readAll (chunks : List (List UInt8)) : Reading := chunks.foldl (read keeps) .start

/-- The lines of a stream, as long as the peer is there, and whether it goes for a line that is too long. A line is
counted with its newline. -/
def handed : List (List UInt8) → List (List UInt8) → List UInt8 → List (List UInt8) × Bool
  | done, [], rest => (done, decide (kMaxLineBytes < rest.length))
  | done, line :: lines, rest =>
    if kMaxLineBytes < line.length + 1 then (done, true)
    else if keeps (done ++ [line]) then handed (done ++ [line]) lines rest
    else (done ++ [line], false)

def handedOf (done : List (List UInt8)) (stream : List UInt8) : List (List UInt8) × Bool :=
  handed keeps done (Lines.lines newline stream) (Lines.unfinished newline stream)

/-- The peer gets what its stream says, however it was cut. -/
structure ReadsStream (chunks : List (List UInt8)) : Prop where
  lines : (readAll keeps chunks).lines = (handedOf keeps [] chunks.flatten).1
  oversized : (readAll keeps chunks).oversized = (handedOf keeps [] chunks.flatten).2

def firstSize (buffer : List UInt8) : ℕ :=
  match Lines.firstLine newline buffer with
  | none => buffer.length
  | some cut => cut.1.length + 1

def Crowded (r : Reading) (chunk : List UInt8) : Prop :=
  r.connected = true → kMaxLineBytes < (r.buffer ++ chunk).length → kMaxLineBytes < firstSize (r.buffer ++ chunk)

def NeverCrowded (chunks : List (List UInt8)) : Prop :=
  Along (fun r chunk => some (read keeps r chunk)) Crowded chunks .start

end Read

section Handed

variable {keeps : List (List UInt8) → Bool} {done : List (List UInt8)}

lemma length_handed (keeps : List (List UInt8) → Bool) (done lines : List (List UInt8)) (rest : List UInt8) :
    done.length ≤ (handed keeps done lines rest).1.length := by
  induction lines generalizing done with
  | nil => exact Nat.le_refl _
  | cons line lines ih =>
    have hmore : done.length ≤ (done ++ [line]).length := by simp
    rw [handed]
    split_ifs
    · exact Nat.le_refl _
    · exact Nat.le_trans hmore (ih _)
    · exact hmore

lemma handedOf_line {line : List UInt8} (hline : newline ∉ line) (rest : List UInt8) :
    handedOf keeps done (line ++ newline :: rest) =
      if kMaxLineBytes < line.length + 1 then (done, true)
      else if keeps (done ++ [line]) then handedOf keeps (done ++ [line]) rest
      else (done ++ [line], false) := by
  rw [handedOf, Lines.lines_append_line hline, Lines.unfinished_append_line hline, handed]
  rfl

lemma handedOf_rest {stream : List UInt8} (h : newline ∉ stream) :
    handedOf keeps done stream = (done, decide (kMaxLineBytes < stream.length)) := by
  rw [handedOf, Lines.lines, Lines.unfinished, Lines.split_of_not_mem h, handed]

lemma handedOf_crowded {buffer : List UInt8} (h : kMaxLineBytes < buffer.length) (more : List UInt8) :
    handedOf keeps done (buffer ++ more) = (done, true) ↔ kMaxLineBytes < firstSize buffer := by
  rw [firstSize]
  cases hfirst : Lines.firstLine newline buffer with
  | none =>
    have hbuffer := Lines.firstLine_eq_none.mp hfirst
    refine iff_of_true ?_ h
    cases hmore : Lines.firstLine newline more with
    | none =>
      have hstream : newline ∉ buffer ++ more := by
        rw [List.mem_append, not_or]
        exact ⟨hbuffer, Lines.firstLine_eq_none.mp hmore⟩
      have hlong : kMaxLineBytes < (buffer ++ more).length := by
        rw [List.length_append]
        omega
      rw [handedOf_rest hstream, decide_eq_true hlong]
    | some cut =>
      obtain ⟨hcut, hrest⟩ := Lines.firstLine_eq_some hmore
      have hline : newline ∉ buffer ++ cut.1 := by
        rw [List.mem_append, not_or]
        exact ⟨hbuffer, hrest⟩
      have hlong : kMaxLineBytes < (buffer ++ cut.1).length + 1 := by
        rw [List.length_append]
        omega
      rw [hcut, ← List.append_assoc, handedOf_line hline, if_pos hlong]
  | some cut =>
    obtain ⟨hcut, hline⟩ := Lines.firstLine_eq_some hfirst
    rw [hcut, List.append_assoc, List.cons_append, handedOf_line hline]
    by_cases hlong : kMaxLineBytes < cut.1.length + 1
    · rw [if_pos hlong]
      exact iff_of_true rfl hlong
    · rw [if_neg hlong]
      refine iff_of_false (fun heq => ?_) hlong
      -- one line more is handed over
      have hmore : (done ++ [cut.1]).length ≤ done.length := by
        split_ifs at heq
        · have hlength := length_handed keeps (done ++ [cut.1])
            (Lines.lines newline (cut.2 ++ more)) (Lines.unfinished newline (cut.2 ++ more))
          rw [handedOf] at heq
          rwa [heq] at hlength
        · cases (Prod.ext_iff.mp heq).2
      rw [List.length_append, List.length_singleton] at hmore
      omega

end Handed

section Chunks

variable {keeps : List (List UInt8) → Bool}

/-- Lines that are taken from the buffer are those that come next in the stream. -/
lemma handedOf_drain (keeps : List (List UInt8) → Bool) (passes : ℕ) {buffer : List UInt8} {r : Reading}
    (hpasses : buffer.length ≤ passes) (hsize : buffer.length ≤ kMaxLineBytes) (hconnected : r.connected = true)
    (more : List UInt8) :
    let drained := Lines.drain newline Reading.connected (hand keeps) passes buffer r
    drained.2.oversized = r.oversized ∧
      if drained.2.connected then
        newline ∉ drained.1 ∧ drained.1.length ≤ kMaxLineBytes ∧
          handedOf keeps r.lines (buffer ++ more) = handedOf keeps drained.2.lines (drained.1 ++ more)
      else handedOf keeps r.lines (buffer ++ more) = (drained.2.lines, false) := by
  induction passes generalizing buffer r with
  | zero =>
    obtain rfl := List.length_eq_zero_iff.mp (Nat.le_zero.mp hpasses)
    rw [Lines.drain]
    dsimp only
    rw [if_pos hconnected]
    exact ⟨rfl, List.not_mem_nil, hsize, rfl⟩
  | succ passes ih =>
    rw [Lines.drain, if_pos hconnected]
    cases hfirst : Lines.firstLine newline buffer with
    | none =>
      dsimp only
      rw [if_pos hconnected]
      exact ⟨rfl, Lines.firstLine_eq_none.mp hfirst, hsize, rfl⟩
    | some cut =>
      obtain ⟨line, rest⟩ := cut
      obtain ⟨rfl, hline⟩ := Lines.firstLine_eq_some hfirst
      rw [List.length_append, List.length_cons] at hpasses hsize
      have hshort : ¬kMaxLineBytes < line.length + 1 := by omega
      rw [List.append_assoc, List.cons_append, handedOf_line hline, if_neg hshort]
      by_cases hkeeps : keeps (r.lines ++ [line]) = true
      · rw [if_pos hkeeps]
        exact ih (r := hand keeps r line) (by omega) (by omega) hkeeps
      · have hgone : (hand keeps r line).connected = false := Bool.eq_false_iff.mpr hkeeps
        dsimp only
        rw [if_neg hkeeps, Lines.drain_dead passes rest hgone, if_neg (by simp [hgone])]
        exact ⟨rfl, rfl⟩

lemma foldl_gone (keeps : List (List UInt8) → Bool) {r : Reading} (h : r.connected = false) (chunks : List (List UInt8)) :
    chunks.foldl (read keeps) r = r ∧ Along (fun r chunk => some (read keeps r chunk)) Crowded chunks r := by
  induction chunks with
  | nil => exact ⟨rfl, trivial⟩
  | cons chunk chunks ih =>
    have hsame : read keeps r chunk = r := by rw [read, if_neg (by simp [h])]
    refine ⟨by rw [List.foldl_cons, hsame, ih.1], fun hconnected => ?_, fun t ht => ?_⟩
    · rw [h] at hconnected
      cases hconnected
    · obtain rfl := Option.some.inj ht
      rw [hsame]
      exact ih.2

lemma foldl_read (keeps : List (List UInt8) → Bool) (chunks : List (List UInt8)) {r : Reading} (hconnected : r.connected = true)
    (hrest : newline ∉ r.buffer) (hsize : r.buffer.length ≤ kMaxLineBytes) (hfine : r.oversized = false) :
    ((chunks.foldl (read keeps) r).lines, (chunks.foldl (read keeps) r).oversized) =
        handedOf keeps r.lines (r.buffer ++ chunks.flatten) ↔
      Along (fun r chunk => some (read keeps r chunk)) Crowded chunks r := by
  induction chunks generalizing r with
  | nil =>
    rw [List.flatten_nil, List.append_nil, handedOf_rest hrest, decide_eq_false (Nat.not_lt.mpr hsize)]
    exact iff_of_true (Prod.ext rfl hfine) trivial
  | cons chunk chunks ih =>
    have hread : read keeps r chunk = onReadyRead keeps r chunk := if_pos hconnected
    have halong : Along (fun r chunk => some (read keeps r chunk)) Crowded (chunk :: chunks) r ↔
        Crowded r chunk ∧ Along (fun r chunk => some (read keeps r chunk)) Crowded chunks (onReadyRead keeps r chunk) := by
      rw [Along, hread]
      simp
    rw [halong, List.foldl_cons, hread, List.flatten_cons, ← List.append_assoc]
    by_cases hlarge : kMaxLineBytes < (r.buffer ++ chunk).length
    · have hgone : onReadyRead keeps r chunk =
          { r with buffer := r.buffer ++ chunk, oversized := true, connected := false } := if_pos hlarge
      obtain ⟨hsame, hrun⟩ := foldl_gone keeps (r := onReadyRead keeps r chunk) (by rw [hgone]) chunks
      rw [hsame, hgone, eq_comm, handedOf_crowded hlarge]
      exact ⟨fun h => ⟨fun _ _ => h, hgone ▸ hrun⟩, fun h => h.1 hconnected hlarge⟩
    · have hcrowded : Crowded r chunk := fun _ h => absurd h hlarge
      have hdrained := handedOf_drain keeps _ (Nat.le_refl _) (Nat.not_lt.mp hlarge) hconnected chunks.flatten
      have hnext : onReadyRead keeps r chunk =
          { (Lines.drain newline Reading.connected (hand keeps) (r.buffer ++ chunk).length (r.buffer ++ chunk) r).2 with
            buffer := (Lines.drain newline Reading.connected (hand keeps) (r.buffer ++ chunk).length (r.buffer ++ chunk) r).1 } :=
        if_neg hlarge
      rw [and_iff_right hcrowded]
      obtain ⟨hoversized, hstream⟩ := hdrained
      split_ifs at hstream with hkept
      · obtain ⟨hrest', hsize', hsame⟩ := hstream
        rw [hsame, hnext]
        exact ih (r := { (Lines.drain newline Reading.connected (hand keeps) (r.buffer ++ chunk).length
          (r.buffer ++ chunk) r).2 with buffer := _ }) hkept hrest' hsize' (hoversized.trans hfine)
      · obtain ⟨hsame, hrun⟩ := foldl_gone keeps (r := onReadyRead keeps r chunk)
          (by rw [hnext]; simpa using hkept) chunks
        rw [hsame, hstream, hnext]
        exact iff_of_true (Prod.ext rfl (hoversized.trans hfine)) (hnext ▸ hrun)

/-- The lines of the stream are what is handed over, and one that is too long is the reason to go, exactly if no buffer is
too large without it. -/
theorem reads_stream_iff (keeps : List (List UInt8) → Bool) (chunks : List (List UInt8)) :
    ReadsStream keeps chunks ↔ NeverCrowded keeps chunks := by
  rw [NeverCrowded, ← foldl_read keeps chunks rfl List.not_mem_nil (Nat.zero_le _) rfl]
  exact ⟨fun h => Prod.ext h.lines h.oversized, fun h => ⟨congrArg Prod.fst h, congrArg Prod.snd h⟩⟩

lemma readAll_two {message : List UInt8} (hmessage : newline ∉ message) (hfits : message.length + 1 ≤ kMaxLineBytes)
    (hboth : kMaxLineBytes < 2 * (message.length + 1)) : ¬ReadsStream keeps [message ++ newline :: (message ++ [newline])] := by
  intro h
  have hrun := (foldl_read keeps [message ++ newline :: (message ++ [newline])] (r := .start) rfl
    List.not_mem_nil (Nat.zero_le _) rfl).mp (Prod.ext h.lines h.oversized)
  have hlarge : kMaxLineBytes < (Reading.start.buffer ++ (message ++ newline :: (message ++ [newline]))).length := by
    rw [List.length_append, List.length_append, List.length_cons, List.length_append, List.length_singleton]
    omega
  have hfirst := hrun.1 rfl hlarge
  have hline : Lines.firstLine newline (Reading.start.buffer ++ (message ++ newline :: (message ++ [newline]))) =
      some (message, message ++ [newline]) := Lines.firstLine_append_line hmessage _
  rw [firstSize, hline] at hfirst
  exact absurd hfirst (Nat.not_lt.mpr hfits)

/-- Two messages of 600000 bytes each, in one piece. -/
theorem reads_stream_two : ¬∀ keeps chunks, ReadsStream keeps chunks := by
  intro h
  have hmessage : newline ∉ List.replicate 600000 (97 : UInt8) := fun hmem =>
    absurd (List.eq_of_mem_replicate hmem) (by decide)
  apply readAll_two hmessage _ _ (h (fun _ => true) _)
  · rw [List.length_replicate, kMaxLineBytes]
    omega
  · rw [List.length_replicate, kMaxLineBytes]
    omega

end Chunks

end SyncService

end InputLeap.Gui
