import InputLeap.Protocol.ClipboardChunk
import Mathlib.Data.List.Chain
import Mathlib.Data.List.Forall2
import Mathlib.Data.List.TakeWhile

/-! A clipboard that is sent in chunks is received as it was sent. -/

namespace InputLeap.Protocol

open InputLeap.Lib ProtocolUtil

namespace StreamChunker

def gChunkSize : ℕ := 32 * 1024

/-- The loop of `sendClipboard`, which sends the data in chunks. Each pass but the last sends a whole
one, so `passes` is never exhausted. -/
def sendLoop (data : List UInt8) (size : ℕ) : ℕ → ℕ → ℕ → List (List UInt8)
  | 0, _, _ => []
  | passes + 1, sentLength, chunkSize =>
    let chunkSize := if size < sentLength + chunkSize then size - sentLength else chunkSize
    let chunk := (data.drop sentLength).take chunkSize
    if sentLength + chunkSize = size then [chunk]
    else chunk :: sendLoop data size passes (sentLength + chunkSize) chunkSize

def dataChunks (data : List UInt8) (size : ℕ) : List (List UInt8) := sendLoop data size (size + 1) 0 gChunkSize

/-- The chunks that are sent. The callers give the size of the data. -/
def sendClipboard (data : List UInt8) (size : ℕ) (id : UInt8) (sequence : UInt32) : List ClipboardChunk :=
  .start id sequence size :: ((dataChunks data size).map (.ofData id sequence) ++ [.ofEnd id sequence])

section Loop

variable {data : List UInt8} {size passes sentLength chunkSize : ℕ}

lemma sendLoop_flatten (hchunk : 0 < chunkSize) (hsent : sentLength ≤ size) (hpasses : size - sentLength < passes) :
    (sendLoop data size passes sentLength chunkSize).flatten = (data.drop sentLength).take (size - sentLength) := by
  induction passes generalizing sentLength with
  | zero => omega
  | succ passes ih =>
    rw [sendLoop]
    rcases Nat.lt_or_ge size (sentLength + chunkSize) with hlast | hmore
    · have hall : sentLength + (size - sentLength) = size := by omega
      simp [if_pos hlast, if_pos hall]
    · rw [if_neg (Nat.not_lt.mpr hmore)]
      split_ifs with hall
      · simp [← hall]
      · rw [List.flatten_cons, ih (by omega) (by omega), ← List.drop_drop, ← List.take_add]
        congr 1
        omega

lemma sendLoop_length_le {chunk : List UInt8} (h : chunk ∈ sendLoop data size passes sentLength chunkSize) :
    chunk.length ≤ chunkSize := by
  induction passes generalizing sentLength chunkSize with
  | zero => simp [sendLoop] at h
  | succ passes ih =>
    rw [sendLoop] at h
    generalize hc : (if size < sentLength + chunkSize then size - sentLength else chunkSize) = count at h
    have hcount : count ≤ chunkSize := by
      rw [← hc]
      split_ifs <;> omega
    have htake : ((data.drop sentLength).take count).length ≤ chunkSize :=
      (List.length_take_le _ _).trans hcount
    split_ifs at h
    · rwa [List.mem_singleton.mp h]
    · rcases List.mem_cons.mp h with rfl | h
      · exact htake
      · exact (ih h).trans hcount

lemma dataChunks_flatten (data : List UInt8) : (dataChunks data data.length).flatten = data := by
  rw [dataChunks, sendLoop_flatten (by decide) (Nat.zero_le _) (by omega)]
  simp

end Loop

end StreamChunker

namespace ClipboardChunk

def message (c : ClipboardChunk) : Option (List UInt8) :=
  writef kMsgDClipboard [.int c.id.toUInt32, .int c.sequence, .int c.mark.toUInt32, .string (some c.data)]

def code : List UInt8 := [68, 67, 76, 80]

section Wire

variable {c : ClipboardChunk}

def fields (c : ClipboardChunk) : List Field :=
  [.int .one c.id.toUInt32, .int .four c.sequence, .int .one c.mark.toUInt32, .string c.data]

def body (c : ClipboardChunk) : List UInt8 := c.fields.flatMap Field.bytes

lemma fields_valid (h : c.data.length ≤ maxStringLength) : ∀ f ∈ c.fields, f.Valid := by
  intro f hf
  simp only [fields, List.mem_cons, List.not_mem_nil, or_false] at hf
  rcases hf with rfl | rfl | rfl | rfl
  · trivial
  · trivial
  · trivial
  · exact h

def clipboardItems : List Item :=
  [.literal 'D', .literal 'C', .literal 'L', .literal 'P', .spec (.int .one), .spec (.int .four), .spec (.int .one),
    .spec .string]

lemma message_eq (h : c.data.length ≤ maxStringLength) : c.message = some (code ++ c.body) := by
  have hcode : ∀ f ∈ [Field.literal 'D', .literal 'C', .literal 'L', .literal 'P'], f.Valid := by decide
  have hvalid : ∀ f ∈ [Field.literal 'D', .literal 'C', .literal 'L', .literal 'P'] ++ c.fields, f.Valid := by
    intro f hf
    rcases List.mem_append.mp hf with hf | hf
    · exact hcode f hf
    · exact fields_valid h f hf
  have hwrite : writefVoid kMsgDClipboard
      [.int c.id.toUInt32, .int c.sequence, .int c.mark.toUInt32, .string (some c.data)] = some (code ++ c.body) :=
    writefVoid_fields hvalid
  have hparse : parse none kMsgDClipboard = some clipboardItems := by decide
  apply writef_eq_some _ hwrite
  refine getLength_written hparse hwrite ?_ ?_ (by simp)
  · have hlength : (code ++ c.body).length = 14 + c.data.length := by
      simp [code, body, fields, Field.bytes, Width.toNat]
      omega
    rw [hlength]
    rw [maxStringLength] at h
    omega
  · simp [clipboardItems, StringLast]

lemma ofStored_fields (c : ClipboardChunk) : ofStored (c.fields.flatMap Field.stored) = some c := by
  have hid : (c.id.toUInt32.toNat % 256 ^ 1).toUInt8 = c.id := by
    simp [Nat.mod_eq_of_lt c.id.toNat_lt]
  have hsequence : (c.sequence.toNat % 256 ^ 4).toUInt32 = c.sequence := by
    have := c.sequence.toNat_lt
    rw [Nat.mod_eq_of_lt (by omega)]
    simp
  have hmark : (c.mark.toUInt32.toNat % 256 ^ 1).toUInt8 = c.mark := by
    simp [Nat.mod_eq_of_lt c.mark.toNat_lt]
  simp only [fields, List.flatMap_cons, List.flatMap_nil, Field.stored, Width.toNat, List.singleton_append,
    List.append_nil, ofStored, hid, hsequence, hmark]

variable {σ : Type} [ByteSource σ] {S : List UInt8 → σ → Prop} (hS : Reader.Delivers S)
include hS

lemma readChunk_body (h : c.data.length ≤ maxStringLength) {tail : List UInt8} {s : σ} (hs : S (c.body ++ tail) s) :
    ∃ t, S tail t ∧ readChunk s = (.ok (some c), t) := by
  have hformat : kMsgDClipboard.drop 4 = c.fields.flatMap Field.format := rfl
  obtain ⟨t, ht, hrun⟩ := (vreadf_steps (fields_valid h)).run hS ReadError.endOfStream hs
  refine ⟨t, ht, ?_⟩
  rw [readChunk, hformat, hrun]
  simp only [Reader.run, readfResult, List.append_nil, ofStored_fields]

end Wire

lemma stringToSizeType_encode (uninit : UInt64) {size : ℕ} (h : size < 2 ^ 64) :
    stringToSizeType uninit (Decimal.encode size) = size := by
  have hdigits : ∀ b ∈ Decimal.encode size, Decimal.isDigit b = true := fun b => Decimal.isDigit_of_mem_encode
  have hvalue : Decimal.decode ((Decimal.encode size).takeWhile Decimal.isDigit) = size := by
    rw [List.takeWhile_eq_self_iff.mpr hdigits, Decimal.decode_encode]
  cases hencode : Decimal.encode size with
  | nil => exact absurd hencode (Decimal.encode_ne_nil size)
  | cons c rest =>
    obtain ⟨hlow, hhigh⟩ : 48 ≤ c.toNat ∧ c.toNat ≤ 57 := by
      simpa [Decimal.isDigit] using hdigits c (by simp [hencode])
    have hspace : ¬ isSpace c = true := by
      simp only [isSpace, Bool.or_eq_true, beq_iff_eq, decide_eq_true_eq, not_or]
      refine ⟨?_, by omega⟩
      rintro rfl
      exact absurd hlow (by decide)
    have hsign : ¬ (c = 43 ∨ c = 45) := by
      rintro (rfl | rfl) <;> exact absurd hlow (by decide)
    rw [hencode] at hvalue
    rw [stringToSizeType, List.dropWhile_cons_of_neg hspace]
    dsimp only
    rw [if_neg hsign, hvalue, if_neg (Nat.not_le.mpr h), if_neg (not_or.mp hsign).2]

section Accept

variable {id : UInt8} {sequence : UInt32} {maxSize size : ℕ} {uninit : UInt64} {cached : List UInt8}

lemma accept_start (hid : id.toNat < kClipboardEnd) (hsize : size < 2 ^ 64) (hmax : size ≤ maxSize) (a : Assembly) :
    accept maxSize uninit a (.start id sequence size) = (⟨[], ⟨size, true, false⟩⟩, .start) := by
  have hdeclared := stringToSizeType_encode uninit hsize
  simp [accept, ClipboardChunk.start, hdeclared, Nat.not_le.mpr hid, Nat.not_lt.mpr hmax]

lemma accept_start_oversize (hid : id.toNat < kClipboardEnd) (hsize : size < 2 ^ 64) (hmax : maxSize < size)
    (a : Assembly) :
    accept maxSize uninit a (.start id sequence size) = (⟨[], ⟨size, true, true⟩⟩, .oversize) := by
  have hdeclared := stringToSizeType_encode uninit hsize
  simp [accept, ClipboardChunk.start, hdeclared, Nat.not_le.mpr hid, hmax]

lemma accept_data (hid : id.toNat < kClipboardEnd) (hsize : size < 2 ^ 64) (cached data : List UInt8)
    (hfits : cached.length + data.length ≤ size) :
    accept maxSize uninit ⟨cached, ⟨size, true, false⟩⟩ (.ofData id sequence data) =
      (⟨cached ++ data, ⟨size, true, false⟩⟩, .notFinish) := by
  have hsub : sizeSub size cached.length = size - cached.length := sizeSub_of_le (by omega) hsize
  have hroom : ¬ size - cached.length < data.length := by omega
  simp [accept, ofData, kDataStart, kDataChunk, hsub, hroom, Nat.not_le.mpr hid]

lemma accept_data_oversize (hid : id.toNat < kClipboardEnd) (size : ℕ) (data : List UInt8) :
    accept maxSize uninit ⟨[], ⟨size, true, true⟩⟩ (.ofData id sequence data) =
      (⟨[], ⟨size, true, true⟩⟩, .oversize) := by
  simp [accept, ofData, kDataStart, kDataChunk, Nat.not_le.mpr hid]

lemma accept_end (hid : id.toNat < kClipboardEnd) :
    accept maxSize uninit ⟨cached, ⟨cached.length, true, false⟩⟩ (.ofEnd id sequence) = (⟨cached, {}⟩, .finish) := by
  simp [accept, ofEnd, kDataStart, kDataChunk, kDataEnd, Nat.not_le.mpr hid]

lemma accept_end_oversize (hid : id.toNat < kClipboardEnd) (size : ℕ) :
    accept maxSize uninit ⟨[], ⟨size, true, true⟩⟩ (.ofEnd id sequence) = (.idle, .oversize) := by
  simp [accept, ofEnd, kDataStart, kDataChunk, kDataEnd, Nat.not_le.mpr hid]

end Accept

variable {σ : Type} [ByteSource σ]

def outcomes (a : Assembly) : List (AssembleCall σ) → List (AssembleOutcome σ)
  | [] => []
  | call :: calls => assemble call a :: outcomes (recvClipboard a call) calls

/-- The message of a chunk is the next in the stream of a call. -/
def Carries (S : List UInt8 → σ → Prop) (maxSize : ℕ) (c : ClipboardChunk) (call : AssembleCall σ) : Prop :=
  call.maxSize = maxSize ∧ ∃ body tail, c.message = some (code ++ body) ∧ S (body ++ tail) call.stream

section Carried

variable {S : List UInt8 → σ → Prop} (hS : Reader.Delivers S) {maxSize : ℕ} {c : ClipboardChunk}
  {call : AssembleCall σ} (hlength : c.data.length ≤ maxStringLength) (hcall : Carries S maxSize c call)
include hS hlength hcall

lemma assemble_carried (a : Assembly) :
    ∃ t, assemble call a =
      ⟨(accept maxSize call.uninit a c).1, .ok (accept maxSize call.uninit a c).2, some (c.id, c.sequence), t⟩ := by
  obtain ⟨rfl, body, tail, hmessage, hs⟩ := hcall
  obtain rfl : c.body = body := by
    rw [message_eq hlength, Option.some.injEq] at hmessage
    exact List.append_cancel_left hmessage
  obtain ⟨t, -, hread⟩ := readChunk_body hS hlength hs
  exact ⟨t, by rw [assemble, hread]⟩

lemma assemble_unfinished {a b : Assembly} {received : DataReceived}
    (haccept : accept maxSize call.uninit a c = (b, received)) (hfinish : received ≠ .finish) :
    recvClipboard a call = b ∧ (assemble call a).assembly = b ∧ (assemble call a).result = .ok received ∧
      (assemble call a).reported = some (c.id, c.sequence) := by
  obtain ⟨t, hassemble⟩ := assemble_carried hS hlength hcall a
  rw [haccept] at hassemble
  refine ⟨?_, by rw [hassemble], by rw [hassemble], by rw [hassemble]⟩
  rw [recvClipboard, hassemble]
  cases received <;> first | rfl | exact absurd rfl hfinish

end Carried

/-- The calls of a transfer: `received` are their results before the last one, which has all of the data. -/
structure Finishes (id : UInt8) (sequence : UInt32) (received : List DataReceived) (data : List UInt8)
    (outcomes : List (AssembleOutcome σ)) : Prop where
  results : outcomes.map (·.result) = received.map .ok ++ [.ok .finish]
  reported : ∀ o ∈ outcomes, o.reported = some (id, sequence)
  last : ∀ o ∈ outcomes.getLast?, o.assembly = ⟨data, {}⟩

omit [ByteSource σ] in
lemma Finishes.cons {id : UInt8} {sequence : UInt32} {received : List DataReceived} {data : List UInt8}
    {outs : List (AssembleOutcome σ)} (h : Finishes id sequence received data outs) {o : AssembleOutcome σ}
    {r : DataReceived} (hresult : o.result = .ok r) (hreported : o.reported = some (id, sequence)) :
    Finishes id sequence (r :: received) data (o :: outs) where
  results := by rw [List.map_cons, hresult, h.results, List.map_cons, List.cons_append]
  reported := List.forall_mem_cons.mpr ⟨hreported, h.reported⟩
  last := by
    have hne : outs ≠ [] := by
      rintro rfl
      simpa using h.results
    rw [List.getLast?_cons_of_ne_nil hne]
    exact h.last

section Transfer

variable {S : List UInt8 → σ → Prop} (hS : Reader.Delivers S) {maxSize size : ℕ} {id : UInt8} {sequence : UInt32}
  (hid : id.toNat < kClipboardEnd) {chunks : List (List UInt8)}
  (hchunks : ∀ chunk ∈ chunks, chunk.length ≤ maxStringLength) {calls : List (AssembleCall σ)}
  (hcalls : List.Forall₂ (Carries S maxSize) (chunks.map (.ofData id sequence) ++ [.ofEnd id sequence]) calls)
include hS hid hchunks hcalls

lemma outcomes_collected (cached : List UInt8) (hsize : size < 2 ^ 64)
    (hall : cached.length + chunks.flatten.length = size) :
    Finishes id sequence (chunks.map fun _ => .notFinish) (cached ++ chunks.flatten)
      (outcomes ⟨cached, ⟨size, true, false⟩⟩ calls) := by
  induction chunks generalizing cached calls with
  | nil =>
    obtain ⟨call, calls, hcall, hnil, rfl⟩ := List.forall₂_cons_left_iff.mp hcalls
    obtain rfl := List.forall₂_nil_left_iff.mp hnil
    obtain ⟨t, hassemble⟩ := assemble_carried hS (Nat.zero_le _) hcall ⟨cached, ⟨size, true, false⟩⟩
    obtain rfl : cached.length = size := by simpa using hall
    rw [accept_end hid] at hassemble
    constructor
    · simp [outcomes, hassemble]
    · simp [outcomes, hassemble, ofEnd]
    · simp [outcomes, hassemble]
  | cons chunk chunks ih =>
    obtain ⟨call, calls, hcall, hrest, rfl⟩ := List.forall₂_cons_left_iff.mp hcalls
    rw [List.flatten_cons, List.length_append] at hall
    obtain ⟨hnext, -, hresult, hreported⟩ := assemble_unfinished hS (hchunks chunk List.mem_cons_self) hcall
      (accept_data hid hsize cached chunk (by omega)) (by simp)
    have hfinishes := ih (fun c hc => hchunks c (List.mem_cons_of_mem chunk hc)) hrest (cached ++ chunk)
      (by rw [List.length_append]; omega)
    rw [List.append_assoc] at hfinishes
    rw [outcomes, hnext]
    exact hfinishes.cons hresult hreported

lemma outcomes_dropped (size : ℕ) :
    (∀ o ∈ outcomes ⟨[], ⟨size, true, true⟩⟩ calls, o.result = .ok .oversize ∧ o.assembly.dataCached = []) ∧
      calls.foldl recvClipboard ⟨[], ⟨size, true, true⟩⟩ = .idle := by
  induction chunks generalizing calls with
  | nil =>
    obtain ⟨call, calls, hcall, hnil, rfl⟩ := List.forall₂_cons_left_iff.mp hcalls
    obtain rfl := List.forall₂_nil_left_iff.mp hnil
    obtain ⟨hnext, hassembly, hresult, -⟩ := assemble_unfinished hS (Nat.zero_le _) hcall
      (accept_end_oversize hid size) (by simp)
    refine ⟨?_, hnext⟩
    intro o ho
    obtain rfl := List.mem_singleton.mp ho
    exact ⟨hresult, by rw [hassembly]; rfl⟩
  | cons chunk chunks ih =>
    obtain ⟨call, calls, hcall, hrest, rfl⟩ := List.forall₂_cons_left_iff.mp hcalls
    obtain ⟨hnext, hassembly, hresult, -⟩ := assemble_unfinished hS (hchunks chunk List.mem_cons_self) hcall
      (accept_data_oversize hid size chunk) (by simp)
    obtain ⟨hdropped, hidle⟩ := ih (fun c hc => hchunks c (List.mem_cons_of_mem chunk hc)) hrest
    refine ⟨?_, by rw [List.foldl_cons, hnext, hidle]⟩
    intro o ho
    rw [outcomes, hnext] at ho
    rcases List.mem_cons.mp ho with rfl | ho
    · exact ⟨hresult, by rw [hassembly]⟩
    · exact hdropped o ho

end Transfer

end ClipboardChunk

namespace StreamChunker

open ClipboardChunk

lemma start_length_le (id : UInt8) (sequence : UInt32) {size : ℕ} (h : size < 2 ^ 64) :
    (ClipboardChunk.start id sequence size).data.length ≤ maxStringLength := by
  have hdigits : (Decimal.encode size).length ≤ 20 := Decimal.encode_length_le (by decide) (h.trans (by decide))
  exact hdigits.trans (by decide)

lemma dataChunks_length_le {data chunk : List UInt8} {size : ℕ} (h : chunk ∈ dataChunks data size) :
    chunk.length ≤ maxStringLength :=
  (sendLoop_length_le h).trans (by decide)

lemma sendClipboard_length_le {data : List UInt8} {size : ℕ} {id : UInt8} {sequence : UInt32} (hsize : size < 2 ^ 64)
    {c : ClipboardChunk} (h : c ∈ sendClipboard data size id sequence) : c.data.length ≤ maxStringLength := by
  rcases List.mem_cons.mp h with rfl | h
  · exact start_length_le id sequence hsize
  · rcases List.mem_append.mp h with h | h
    · obtain ⟨chunk, hchunk, rfl⟩ := List.mem_map.mp h
      exact dataChunks_length_le hchunk
    · rw [List.mem_singleton.mp h]
      exact Nat.zero_le _

section Sent

variable {σ : Type} [ByteSource σ] {S : List UInt8 → σ → Prop} (hS : Reader.Delivers S) {data : List UInt8}
  (hdata : data.length < 2 ^ 64) {id : UInt8} (hid : id.toNat < kClipboardEnd) {sequence : UInt32} {maxSize : ℕ}
  {calls : List (AssembleCall σ)}
  (hcalls : List.Forall₂ (Carries S maxSize) (sendClipboard data data.length id sequence) calls)
include hS hdata hid hcalls

lemma outcomes_fitting (hmax : data.length ≤ maxSize) (a : Assembly) :
    Finishes id sequence (.start :: (dataChunks data data.length).map fun _ => .notFinish) data (outcomes a calls) := by
  have hchunks : ∀ chunk ∈ dataChunks data data.length, chunk.length ≤ maxStringLength :=
    fun _ => dataChunks_length_le
  obtain ⟨call, calls, hcall, hrest, rfl⟩ := List.forall₂_cons_left_iff.mp hcalls
  obtain ⟨hnext, -, hresult, hreported⟩ := assemble_unfinished hS (start_length_le id sequence hdata) hcall
    (accept_start hid hdata hmax a) (by simp)
  have hfinishes := outcomes_collected hS hid hchunks hrest [] hdata (by rw [dataChunks_flatten]; simp)
  rw [dataChunks_flatten, List.nil_append] at hfinishes
  rw [outcomes, hnext]
  exact hfinishes.cons hresult hreported

lemma outcomes_oversize (hmax : maxSize < data.length) (a : Assembly) :
    (∀ o ∈ outcomes a calls, o.result = .ok .oversize ∧ o.assembly.dataCached = []) ∧
      calls.foldl recvClipboard a = .idle := by
  have hchunks : ∀ chunk ∈ dataChunks data data.length, chunk.length ≤ maxStringLength :=
    fun _ => dataChunks_length_le
  obtain ⟨call, calls, hcall, hrest, rfl⟩ := List.forall₂_cons_left_iff.mp hcalls
  obtain ⟨hnext, hassembly, hresult, -⟩ := assemble_unfinished hS (start_length_le id sequence hdata) hcall
    (accept_start_oversize hid hdata hmax a) (by simp)
  obtain ⟨hdropped, hidle⟩ := outcomes_dropped hS hid hchunks hrest data.length
  refine ⟨?_, by rw [List.foldl_cons, hnext, hidle]⟩
  intro o ho
  rw [outcomes, hnext] at ho
  rcases List.mem_cons.mp ho with rfl | ho
  · exact ⟨hresult, by rw [hassembly]⟩
  · exact hdropped o ho

end Sent

/-- Whatever transfer was under way, a clipboard that is sent in chunks is received as it was sent, or it is
dropped as a whole if it is over the limit. -/
theorem assemble_sendClipboard {σ : Type} [ByteSource σ] {S : List UInt8 → σ → Prop} (hS : Reader.Delivers S)
    {data : List UInt8} (hdata : data.length < 2 ^ 64) {id : UInt8} (hid : id.toNat < kClipboardEnd)
    (sequence : UInt32) (maxSize : ℕ) (a : Assembly) :
    (∀ c ∈ sendClipboard data data.length id sequence, ∃ body, c.message = some (code ++ body)) ∧
    ∀ calls : List (AssembleCall σ),
      List.Forall₂ (Carries S maxSize) (sendClipboard data data.length id sequence) calls →
      (data.length ≤ maxSize →
        Finishes id sequence (.start :: (dataChunks data data.length).map fun _ => .notFinish) data
          (outcomes a calls)) ∧
      (maxSize < data.length →
        (∀ o ∈ outcomes a calls, o.result = .ok .oversize ∧ o.assembly.dataCached = []) ∧
        calls.foldl recvClipboard a = .idle) := by
  refine ⟨fun c hc => ⟨_, message_eq (sendClipboard_length_le hdata hc)⟩, ?_⟩
  intro calls hcalls
  constructor
  · exact fun hmax => outcomes_fitting hS hdata hid hcalls hmax a
  · exact fun hmax => outcomes_oversize hS hdata hid hcalls hmax a

theorem assemble_sendClipboard_after_another :
    (outcomes ⟨[1], ⟨5, true, false⟩⟩
      [⟨Pieces.mk [[1, 0, 0], [0, 7, 1, 0, 0, 0, 1, 50, 9]], 10, 0, true⟩,
        ⟨Pieces.mk [[1, 0, 0, 0, 7, 2, 0, 0, 0], [2, 104], [105]], 10, 0, true⟩,
        ⟨Pieces.mk [[1, 0, 0, 0, 7, 3, 0, 0, 0, 0]], 10, 0, true⟩]).map (·.result) =
      [.ok .start, .ok .notFinish, .ok .finish] := by
  have hsend : ∀ calls : List (AssembleCall Pieces),
      List.Forall₂ (Carries Pieces.Holds 10) (sendClipboard [104, 105] 2 1 7) calls →
      (outcomes ⟨[1], ⟨5, true, false⟩⟩ calls).map (·.result) = [.ok .start, .ok .notFinish, .ok .finish] :=
    fun calls hcalls => (((assemble_sendClipboard Pieces.delivers (by decide) (by decide) 7 10 _).2 calls hcalls).1
      (by decide)).results
  apply hsend
  refine .cons ⟨rfl, [1, 0, 0, 0, 7, 1, 0, 0, 0, 1, 50], [9], by decide, rfl, by decide⟩ ?_
  refine .cons ⟨rfl, [1, 0, 0, 0, 7, 2, 0, 0, 0, 2, 104, 105], [], by decide, rfl, by decide⟩ ?_
  exact .cons ⟨rfl, [1, 0, 0, 0, 7, 3, 0, 0, 0, 0], [], by decide, rfl, by decide⟩ .nil

structure Transfer where
  data : List UInt8
  id : UInt8
  sequence : UInt32

def Transfer.chunks (t : Transfer) : List ClipboardChunk := sendClipboard t.data t.data.length t.id t.sequence

/-- A chunk that does not start a transfer belongs to the clipboard of the one before. -/
def Continues (c d : ClipboardChunk) : Prop := d.mark ≠ kDataStart → d.id = c.id ∧ d.sequence = c.sequence

lemma Transfer.chunks_ids {t : Transfer} {c : ClipboardChunk} (h : c ∈ t.chunks) :
    c.id = t.id ∧ c.sequence = t.sequence := by
  rcases List.mem_cons.mp h with rfl | h
  · exact ⟨rfl, rfl⟩
  · rcases List.mem_append.mp h with h | h
    · obtain ⟨chunk, -, rfl⟩ := List.mem_map.mp h
      exact ⟨rfl, rfl⟩
    · rw [List.mem_singleton.mp h]
      exact ⟨rfl, rfl⟩

lemma Transfer.chunks_continue (t : Transfer) : t.chunks.IsChain Continues := by
  apply List.Pairwise.isChain
  apply List.pairwise_of_forall_mem_list
  intro c hc d hd _
  obtain ⟨hid, hsequence⟩ := chunks_ids hc
  obtain ⟨hid', hsequence'⟩ := chunks_ids hd
  exact ⟨hid'.trans hid.symm, hsequence'.trans hsequence.symm⟩

lemma chunks_continue (transfers : List Transfer) : (transfers.flatMap Transfer.chunks).IsChain Continues := by
  induction transfers with
  | nil => exact .nil
  | cons t transfers ih =>
    rw [List.flatMap_cons]
    apply t.chunks_continue.append ih
    intro c _ d hd hmark
    -- the transfer behind it begins with a start
    cases transfers with
    | nil => simp at hd
    | cons u transfers =>
      obtain rfl : ClipboardChunk.start u.id u.sequence u.data.length = d := by
        simpa [Transfer.chunks, sendClipboard] using hd
      exact absurd rfl hmark

lemma ids_of_continue {c : ClipboardChunk} {rest : List ClipboardChunk} (h : (c :: rest).IsChain Continues)
    (hmarks : ∀ d ∈ rest, d.mark ≠ kDataStart) : ∀ d ∈ rest, d.id = c.id ∧ d.sequence = c.sequence := by
  induction rest generalizing c with
  | nil => simp
  | cons d rest ih =>
    obtain ⟨hcontinues, hrest⟩ := List.isChain_cons_cons.mp h
    have hd := hcontinues (hmarks d List.mem_cons_self)
    intro e he
    rcases List.mem_cons.mp he with rfl | he
    · exact hd
    · obtain ⟨hid, hsequence⟩ := ih hrest (fun x hx => hmarks x (List.mem_cons_of_mem d hx)) e he
      exact ⟨hid.trans hd.1, hsequence.trans hd.2⟩

open Arrival in
/-- The id and the sequence number of a finished transfer are those of its end. If the chunks are those of calls
of `sendClipboard`, one after the other, they are also those of its start and of its data. -/
theorem assemble_finish_ids {σ : Type} [ByteSource σ] {calls : List (AssembleCall σ)} {call : AssembleCall σ}
    (h : (assemble call (afterCalls calls)).result = .ok .finish) :
    ∃ start datas last, Since (arrived calls) start datas ∧ arrival? call = some last ∧
      last.chunk.mark = kDataEnd ∧
      (assemble call (afterCalls calls)).reported = some (last.chunk.id, last.chunk.sequence) ∧
      ∀ transfers : List Transfer,
        (arrived (calls ++ [call])).map (·.chunk) <+: transfers.flatMap Transfer.chunks →
        ∀ c ∈ start :: datas, (assemble call (afterCalls calls)).reported = some (c.chunk.id, c.chunk.sequence) := by
  cases assemble_cases call (afterCalls calls) with
  | thrown hresult => simp [hresult] at h
  | short hresult => simp [hresult] at h
  | @read last hread hresult _ hreported =>
    obtain ⟨start, datas, hsince, hend, -, -⟩ :=
      (afterCalls_collects calls).finish (Except.ok.inj (hresult.symm.trans h))
    refine ⟨start, datas, last, hsince, hread, hend, hreported, ?_⟩
    intro transfers hpre
    obtain ⟨before, hbefore⟩ := hsince.arrivals
    obtain ⟨later, hlater⟩ := hpre
    have hchain := chunks_continue transfers
    rw [← hlater] at hchain
    replace hchain := hchain.left_of_append
    rw [arrived_append, hbefore, hread, Option.toList_some, List.append_assoc, List.map_append] at hchain
    have hids := ids_of_continue hchain.right_of_append ?_
    · obtain ⟨hid, hsequence⟩ := hids last.chunk (List.mem_map_of_mem (by simp))
      rw [hreported, hid, hsequence]
      intro c hc
      rcases List.mem_cons.mp hc with rfl | hc
      · rfl
      · obtain ⟨hid', hsequence'⟩ := hids c.chunk (List.mem_map_of_mem (by simp [hc]))
        rw [hid', hsequence']
    · intro d hd
      obtain ⟨e, he, rfl⟩ := List.mem_map.mp hd
      rcases List.mem_append.mp he with he | he
      · rw [hsince.datas e he]
        decide
      · rw [List.mem_singleton.mp he, hend]
        decide

def callWith (c : ClipboardChunk) : AssembleCall Pieces := ⟨⟨[c.body]⟩, 10, 0, true⟩

theorem assemble_finish_ids_sent :
    ∃ start datas, Arrival.Since (arrived [callWith (.start 1 7 1), callWith (.ofData 1 7 [104])]) start datas ∧
      ∀ c ∈ start :: datas, (assemble (callWith (.ofEnd 1 7))
        (afterCalls [callWith (.start 1 7 1), callWith (.ofData 1 7 [104])])).reported =
          some (c.chunk.id, c.chunk.sequence) := by
  obtain ⟨start, datas, last, hsince, -, -, -, hsent⟩ := assemble_finish_ids
    (show (assemble (callWith (.ofEnd 1 7))
      (afterCalls [callWith (.start 1 7 1), callWith (.ofData 1 7 [104])])).result = .ok .finish by rfl)
  refine ⟨start, datas, hsince, hsent [⟨[104], 1, 7⟩] ?_⟩
  decide

/-- The end of a transfer for the other clipboard. -/
theorem assemble_finish_other_id :
    ¬ ∀ (calls : List (AssembleCall Pieces)) (call : AssembleCall Pieces) (start : Arrival) (datas : List Arrival),
      (assemble call (afterCalls calls)).result = .ok .finish → Arrival.Since (arrived calls) start datas →
      ∀ c ∈ start :: datas, (assemble call (afterCalls calls)).reported = some (c.chunk.id, c.chunk.sequence) := by
  intro h
  have hids := h [callWith (.start 0 7 1), callWith (.ofData 0 7 [104])] (callWith (.ofEnd 1 7))
    ⟨.start 0 7 1, 10, 0⟩ [⟨.ofData 0 7 [104], 10, 0⟩] rfl ⟨⟨[], rfl⟩, rfl, by simp [ofData]⟩ _ List.mem_cons_self
  revert hids
  decide

end StreamChunker

end InputLeap.Protocol
