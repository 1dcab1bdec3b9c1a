import InputLeap.Lib.Decimal
import InputLeap.Protocol.WireCodec

/-! A clipboard arrives in chunks: its size in decimal, its data, and an end. The receiver collects the
data of one transfer at a time and drops a transfer that is over its limit. -/

namespace InputLeap.Protocol

open InputLeap.Lib ProtocolUtil

def kClipboardEnd : ℕ := 2

def kDataStart : UInt8 := 1

def kDataChunk : UInt8 := 2

def kDataEnd : UInt8 := 3

inductive DataReceived
  | start
  | notFinish
  | finish
  | error
  | oversize
  deriving DecidableEq

def isSpace (b : UInt8) : Bool := b == 32 || decide (9 ≤ b.toNat ∧ b.toNat ≤ 13)

/-- A number is read as `istream` does: blanks are skipped, a sign is allowed, a number that is too large
gives the largest one and a text without digits gives zero. Where there is nothing but blanks, the
variable keeps the value it happens to have. -/
def stringToSizeType (uninit : UInt64) (string : List UInt8) : ℕ :=
  match string.dropWhile isSpace with
  | [] => uninit.toNat
  | c :: rest =>
    let digits := (if c = 43 ∨ c = 45 then rest else c :: rest).takeWhile Decimal.isDigit
    let n := Decimal.decode digits
    if 2 ^ 64 ≤ n then 2 ^ 64 - 1
    else if c = 45 then (2 ^ 64 - n) % 2 ^ 64
    else n

structure ClipboardChunk where
  id : UInt8
  sequence : UInt32
  mark : UInt8
  data : List UInt8
  deriving DecidableEq

structure ClipboardChunkAssemblyState where
  expectedSize : ℕ := 0
  active : Bool := false
  oversize : Bool := false
  deriving DecidableEq

structure Assembly where
  dataCached : List UInt8
  state : ClipboardChunkAssemblyState
  deriving DecidableEq

def Assembly.idle : Assembly := ⟨[], {}⟩

/-- One call of `assemble`, with the stream behind the code of a message. -/
structure AssembleCall (σ : Type) where
  stream : σ
  maxSize : ℕ
  /-- What the variable in `stringToSizeType` happens to hold. -/
  uninit : UInt64
  /-- The caller clears the data when a transfer is finished. -/
  clears : Bool

structure AssembleOutcome (σ : Type) where
  assembly : Assembly
  /-- An error is an exception. -/
  result : Except ReadError DataReceived
  /-- The id and the sequence number, if they have been read. -/
  reported : Option (UInt8 × UInt32)
  stream : σ

namespace ClipboardChunk

def start (id : UInt8) (sequence : UInt32) (size : ℕ) : ClipboardChunk :=
  ⟨id, sequence, kDataStart, Decimal.encode size⟩

def ofData (id : UInt8) (sequence : UInt32) (data : List UInt8) : ClipboardChunk := ⟨id, sequence, kDataChunk, data⟩

def ofEnd (id : UInt8) (sequence : UInt32) : ClipboardChunk := ⟨id, sequence, kDataEnd, []⟩

def sizeSub (a b : ℕ) : ℕ := (a + (2 ^ 64 - b % 2 ^ 64)) % 2 ^ 64

def accept (maxSize : ℕ) (uninit : UInt64) (a : Assembly) (chunk : ClipboardChunk) : Assembly × DataReceived :=
  if kClipboardEnd ≤ chunk.id.toNat then (.idle, .error)
  else if chunk.mark = kDataStart then
    let expectedSize := stringToSizeType uninit chunk.data
    if maxSize < expectedSize then (⟨[], ⟨expectedSize, true, true⟩⟩, .oversize)
    else (⟨[], ⟨expectedSize, true, false⟩⟩, .start)
  else if chunk.mark = kDataChunk then
    if !a.state.active then (.idle, .error)
    else if a.state.oversize then (a, .oversize)
    -- values of `size_t`, so that the difference is taken modulo `2 ^ 64`
    else if sizeSub a.state.expectedSize a.dataCached.length < chunk.data.length then (.idle, .error)
    else ({ a with dataCached := a.dataCached ++ chunk.data }, .notFinish)
  else if chunk.mark = kDataEnd then
    if !a.state.active then (.idle, .error)
    else if a.state.oversize then (.idle, .oversize)
    else if a.state.expectedSize ≠ a.dataCached.length then (.idle, .error)
    else ({ a with state := {} }, .finish)
  else (.idle, .error)

variable {σ : Type} [ByteSource σ]

def ofStored : List Stored → Option ClipboardChunk
  | [.int id, .int sequence, .int mark, .string data] =>
    some ⟨id.toUInt8, sequence.toUInt32, mark.toUInt8, data⟩
  | _ => none

/-- The message behind its code, which is no chunk if it is cut short. -/
def readChunk (stream : σ) : Except ReadError (Option ClipboardChunk) × σ :=
  let o := (vreadf (kMsgDClipboard.drop 4)).run .endOfStream stream
  match readfResult o.result with
  | .error e => (.error e, o.source)
  | .ok false => (.ok none, o.source)
  | .ok true => (.ok (ofStored o.stored), o.source)

def assemble (call : AssembleCall σ) (a : Assembly) : AssembleOutcome σ :=
  match readChunk call.stream with
  | (.error e, stream) => ⟨a, .error e, none, stream⟩
  | (.ok none, stream) => ⟨.idle, .ok .error, none, stream⟩
  | (.ok (some chunk), stream) =>
    let (b, received) := accept call.maxSize call.uninit a chunk
    ⟨b, .ok received, some (chunk.id, chunk.sequence), stream⟩

/-- The callers take the data of a finished transfer and clear it. -/
def recvClipboard (a : Assembly) (call : AssembleCall σ) : Assembly :=
  let o := assemble call a
  match o.result with
  | .ok .finish => if call.clears then { o.assembly with dataCached := [] } else o.assembly
  | _ => o.assembly

def afterCalls (calls : List (AssembleCall σ)) : Assembly := calls.foldl recvClipboard .idle

structure Arrival where
  chunk : ClipboardChunk
  maxSize : ℕ
  uninit : UInt64

def arrival? (call : AssembleCall σ) : Option Arrival :=
  match (readChunk call.stream).1 with
  | .ok (some chunk) => some ⟨chunk, call.maxSize, call.uninit⟩
  | _ => none

def arrived (calls : List (AssembleCall σ)) : List Arrival := calls.filterMap arrival?

section Cases

variable {maxSize : ℕ} {uninit : UInt64} {a b : Assembly} {chunk : ClipboardChunk} {received : DataReceived}

inductive Accepts (maxSize : ℕ) (uninit : UInt64) (a : Assembly) (chunk : ClipboardChunk) :
    Assembly → DataReceived → Prop
  | start (hid : chunk.id.toNat < kClipboardEnd) (hmark : chunk.mark = kDataStart)
      (hsize : stringToSizeType uninit chunk.data ≤ maxSize) :
      Accepts maxSize uninit a chunk ⟨[], ⟨stringToSizeType uninit chunk.data, true, false⟩⟩ .start
  | startOversize (hid : chunk.id.toNat < kClipboardEnd) (hmark : chunk.mark = kDataStart)
      (hsize : maxSize < stringToSizeType uninit chunk.data) :
      Accepts maxSize uninit a chunk ⟨[], ⟨stringToSizeType uninit chunk.data, true, true⟩⟩ .oversize
  | data (hid : chunk.id.toNat < kClipboardEnd) (hmark : chunk.mark = kDataChunk) (hactive : a.state.active = true)
      (hoversize : a.state.oversize = false)
      (hfits : chunk.data.length ≤ sizeSub a.state.expectedSize a.dataCached.length) :
      Accepts maxSize uninit a chunk { a with dataCached := a.dataCached ++ chunk.data } .notFinish
  | dataOversize (hid : chunk.id.toNat < kClipboardEnd) (hmark : chunk.mark = kDataChunk)
      (hactive : a.state.active = true) (hoversize : a.state.oversize = true) :
      Accepts maxSize uninit a chunk a .oversize
  | finish (hid : chunk.id.toNat < kClipboardEnd) (hmark : chunk.mark = kDataEnd) (hactive : a.state.active = true)
      (hoversize : a.state.oversize = false) (hsize : a.state.expectedSize = a.dataCached.length) :
      Accepts maxSize uninit a chunk { a with state := {} } .finish
  | endOversize (hid : chunk.id.toNat < kClipboardEnd) (hmark : chunk.mark = kDataEnd)
      (hactive : a.state.active = true) (hoversize : a.state.oversize = true) :
      Accepts maxSize uninit a chunk .idle .oversize
  | error : Accepts maxSize uninit a chunk .idle .error

lemma accept_cases (maxSize : ℕ) (uninit : UInt64) (a : Assembly) (chunk : ClipboardChunk) :
    Accepts maxSize uninit a chunk (accept maxSize uninit a chunk).1 (accept maxSize uninit a chunk).2 := by
  rw [accept]
  by_cases hid : kClipboardEnd ≤ chunk.id.toNat
  · rw [if_pos hid]
    exact .error
  rw [if_neg hid]
  replace hid := not_le.mp hid
  by_cases hstart : chunk.mark = kDataStart
  · rw [if_pos hstart]
    dsimp only
    rcases Nat.lt_or_ge maxSize (stringToSizeType uninit chunk.data) with hover | hfits
    · rw [if_pos hover]
      exact .startOversize hid hstart hover
    · rw [if_neg (not_lt.mpr hfits)]
      exact .start hid hstart hfits
  rw [if_neg hstart]
  by_cases hdata : chunk.mark = kDataChunk
  · rw [if_pos hdata]
    cases hactive : a.state.active with
    | false => exact .error
    | true =>
      cases hoversize : a.state.oversize with
      | true => exact .dataOversize hid hdata hactive hoversize
      | false =>
        rcases Nat.lt_or_ge (sizeSub a.state.expectedSize a.dataCached.length) chunk.data.length with hmore | hfits
        · simp only [if_pos hmore]
          exact .error
        · simp only [if_neg (not_lt.mpr hfits)]
          exact .data hid hdata hactive hoversize hfits
  rw [if_neg hdata]
  by_cases hend : chunk.mark = kDataEnd
  · rw [if_pos hend]
    cases hactive : a.state.active with
    | false => exact .error
    | true =>
      cases hoversize : a.state.oversize with
      | true => exact .endOversize hid hend hactive hoversize
      | false =>
        by_cases hsize : a.state.expectedSize = a.dataCached.length
        · simp only [if_neg (not_not.mpr hsize)]
          exact .finish hid hend hactive hoversize hsize
        · simp only [if_pos hsize]
          exact .error
  rw [if_neg hend]
  exact .error

end Cases

namespace Arrival

def declared (start : Arrival) : ℕ := stringToSizeType start.uninit start.chunk.data

/-- `start` is the last start that has arrived, and data is all that has arrived since. -/
structure Since (arrivals : List Arrival) (start : Arrival) (datas : List Arrival) : Prop where
  arrivals : ∃ before, arrivals = before ++ start :: datas
  start : start.chunk.mark = kDataStart
  datas : ∀ d ∈ datas, d.chunk.mark = kDataChunk

variable {arrivals datas : List Arrival} {start : Arrival}

lemma Since.of_start (h : start.chunk.mark = kDataStart) : Since (arrivals ++ [start]) start [] :=
  ⟨⟨arrivals, rfl⟩, h, by simp⟩

lemma Since.data {d : Arrival} (h : Since arrivals start datas) (hd : d.chunk.mark = kDataChunk) :
    Since (arrivals ++ [d]) start (datas ++ [d]) := by
  obtain ⟨before, hbefore⟩ := h.arrivals
  refine ⟨⟨before, by simp [hbefore]⟩, h.start, ?_⟩
  intro e he
  rcases List.mem_append.mp he with he | he
  · exact h.datas e he
  · rwa [List.mem_singleton.mp he]

end Arrival

section Invariant

variable {arrivals : List Arrival} {a : Assembly}

open Arrival

/-- The data that is kept is what has arrived since the last start, and none of a transfer over the limit. -/
inductive Collects (arrivals : List Arrival) (a : Assembly) : Prop
  | inactive (hactive : a.state.active = false)
  | collecting {start : Arrival} {datas : List Arrival} (hsince : Since arrivals start datas)
      (hstate : a.state = ⟨start.declared, true, false⟩) (hmax : start.declared ≤ start.maxSize)
      (hdata : a.dataCached = datas.flatMap (·.chunk.data)) (hle : a.dataCached.length ≤ start.declared)
  | dropping {start : Arrival} {datas : List Arrival} (hsince : Since arrivals start datas)
      (hstate : a.state = ⟨start.declared, true, true⟩) (hmax : start.maxSize < start.declared)
      (hdata : a.dataCached = [])

lemma idle_collects : Collects arrivals .idle := .inactive rfl

lemma stringToSizeType_lt (uninit : UInt64) (string : List UInt8) : stringToSizeType uninit string < 2 ^ 64 := by
  rw [stringToSizeType]
  split
  · exact uninit.toNat_lt
  · dsimp only
    generalize Decimal.decode _ = n
    split_ifs
    · omega
    · exact Nat.mod_lt _ (by omega)
    · omega

lemma sizeSub_of_le {a b : ℕ} (hle : b ≤ a) (ha : a < 2 ^ 64) : sizeSub a b = a - b := by
  rw [sizeSub]
  omega

lemma Collects.accept (h : Collects arrivals a) (d : Arrival) :
    Collects (arrivals ++ [d]) (accept d.maxSize d.uninit a d.chunk).1 := by
  generalize hb : (ClipboardChunk.accept d.maxSize d.uninit a d.chunk).1 = b
  generalize hr : (ClipboardChunk.accept d.maxSize d.uninit a d.chunk).2 = received
  have hcases := accept_cases d.maxSize d.uninit a d.chunk
  rw [hb, hr] at hcases
  cases hcases with
  | start _ hmark hsize => exact .collecting (.of_start hmark) rfl hsize rfl (Nat.zero_le _)
  | startOversize _ hmark hsize => exact .dropping (.of_start hmark) rfl hsize rfl
  | data _ hmark hactive hoversize hfits =>
    cases h with
    | inactive hnot => simp [hnot] at hactive
    | @collecting start datas hsince hstate hmax hdata hle =>
      rw [hstate, sizeSub_of_le hle (stringToSizeType_lt _ _)] at hfits
      refine .collecting (hsince.data hmark) hstate hmax ?_ ?_
      · simp [hdata]
      · rw [List.length_append]
        omega
    | dropping _ hstate => simp [hstate] at hoversize
  | dataOversize _ hmark hactive hoversize =>
    cases h with
    | inactive hnot => simp [hnot] at hactive
    | collecting _ hstate => simp [hstate] at hoversize
    | dropping hsince hstate hmax hdata => exact .dropping (hsince.data hmark) hstate hmax hdata
  | finish => exact .inactive rfl
  | endOversize => exact idle_collects
  | error => exact idle_collects

lemma Collects.finish {d : Arrival} (h : Collects arrivals a)
    (hfinish : (ClipboardChunk.accept d.maxSize d.uninit a d.chunk).2 = .finish) :
    ∃ start datas, Since arrivals start datas ∧ d.chunk.mark = kDataEnd ∧
      (ClipboardChunk.accept d.maxSize d.uninit a d.chunk).1.dataCached = datas.flatMap (·.chunk.data) ∧
      (ClipboardChunk.accept d.maxSize d.uninit a d.chunk).1.dataCached.length = start.declared := by
  generalize hb : (ClipboardChunk.accept d.maxSize d.uninit a d.chunk).1 = b
  have hcases := accept_cases d.maxSize d.uninit a d.chunk
  rw [hb, hfinish] at hcases
  cases hcases with
  | finish _ hmark hactive hoversize hsize =>
    cases h with
    | inactive hnot => simp [hnot] at hactive
    | collecting hsince hstate _ hdata =>
      rw [hstate] at hsize
      exact ⟨_, _, hsince, hmark, hdata, hsize.symm⟩
    | dropping _ hstate => simp [hstate] at hoversize

inductive Assembles (call : AssembleCall σ) (a : Assembly) (o : AssembleOutcome σ) : Prop
  | thrown {e : ReadError} (hresult : o.result = .error e) (hassembly : o.assembly = a)
      (hnone : arrival? call = none)
  | short (hresult : o.result = .ok .error) (hassembly : o.assembly = .idle) (hnone : arrival? call = none)
  | read {d : Arrival} (hread : arrival? call = some d)
      (hresult : o.result = .ok (ClipboardChunk.accept d.maxSize d.uninit a d.chunk).2)
      (hassembly : o.assembly = (ClipboardChunk.accept d.maxSize d.uninit a d.chunk).1)
      (hreported : o.reported = some (d.chunk.id, d.chunk.sequence))

lemma assemble_cases (call : AssembleCall σ) (a : Assembly) : Assembles call a (assemble call a) := by
  rw [assemble]
  split
  · rename_i e stream h
    exact .thrown rfl rfl (by simp [arrival?, h])
  · rename_i stream h
    exact .short rfl rfl (by simp [arrival?, h])
  · rename_i chunk stream h
    have hread : arrival? call = some ⟨chunk, call.maxSize, call.uninit⟩ := by simp [arrival?, h]
    exact .read hread rfl rfl rfl

lemma arrived_append (calls : List (AssembleCall σ)) (call : AssembleCall σ) :
    arrived (calls ++ [call]) = arrived calls ++ (arrival? call).toList := by
  rw [arrived, List.filterMap_append]
  cases h : arrival? call <;> simp [arrived, h]

lemma Collects.assemble {calls : List (AssembleCall σ)} (h : Collects (arrived calls) a) (call : AssembleCall σ) :
    Collects (arrived (calls ++ [call])) (assemble call a).assembly := by
  rw [arrived_append]
  cases assemble_cases call a with
  | thrown _ hassembly hnone => rwa [hassembly, hnone, Option.toList_none, List.append_nil]
  | short _ hassembly =>
    rw [hassembly]
    exact idle_collects
  | read hread _ hassembly =>
    rw [hassembly, hread]
    exact h.accept _

lemma finish_state {call : AssembleCall σ} (h : (ClipboardChunk.assemble call a).result = .ok .finish) :
    (ClipboardChunk.assemble call a).assembly.state = {} := by
  cases assemble_cases call a with
  | thrown hresult => simp [hresult] at h
  | short hresult => simp [hresult] at h
  | @read d _ hresult hassembly =>
    have hcases := accept_cases d.maxSize d.uninit a d.chunk
    rw [Except.ok.inj (hresult.symm.trans h), ← hassembly] at hcases
    generalize (ClipboardChunk.assemble call a).assembly = b at hcases
    cases hcases
    rfl

lemma Collects.recvClipboard {calls : List (AssembleCall σ)} (h : Collects (arrived calls) a)
    (call : AssembleCall σ) : Collects (arrived (calls ++ [call])) (recvClipboard a call) := by
  rw [ClipboardChunk.recvClipboard]
  split
  · rename_i hfinish
    have hstate := finish_state hfinish
    split_ifs
    · exact .inactive (by simp [hstate])
    · exact h.assemble call
  · exact h.assemble call

lemma Collects.run {before : List (AssembleCall σ)} (h : Collects (arrived before) a)
    (calls : List (AssembleCall σ)) :
    Collects (arrived (before ++ calls)) (calls.foldl ClipboardChunk.recvClipboard a) := by
  induction calls generalizing before a with
  | nil => rwa [List.append_nil]
  | cons call calls ih =>
    have hrest := ih (h.recvClipboard call)
    rwa [List.append_assoc] at hrest

lemma afterCalls_collects (calls : List (AssembleCall σ)) : Collects (arrived calls) (afterCalls calls) :=
  @Collects.run σ _ .idle [] idle_collects calls

end Invariant

open Arrival in
/-- Whatever arrives, no more is kept than was declared and than the limit allows, nothing is kept of a
transfer that is dropped, and a transfer that is finished has all of its data. -/
theorem assemble_keeps_declared (calls : List (AssembleCall σ)) :
    ((afterCalls calls).state.active = true → (afterCalls calls).state.oversize = false →
      ∃ start datas, Since (arrived calls) start datas ∧
        (afterCalls calls).dataCached.length ≤ (afterCalls calls).state.expectedSize ∧
        (afterCalls calls).state.expectedSize ≤ start.maxSize) ∧
    ((afterCalls calls).state.active = true → (afterCalls calls).state.oversize = true →
      (afterCalls calls).dataCached.length = 0) ∧
    ∀ call : AssembleCall σ, (assemble call (afterCalls calls)).result = .ok .finish →
      ∃ start datas, Since (arrived calls) start datas ∧
        (assemble call (afterCalls calls)).assembly.dataCached = datas.flatMap (·.chunk.data) ∧
        (assemble call (afterCalls calls)).assembly.dataCached.length = start.declared := by
  have h := afterCalls_collects calls
  refine ⟨?_, ?_, ?_⟩
  · intro hactive hoversize
    cases h with
    | inactive hnot => simp [hnot] at hactive
    | collecting hsince hstate hmax _ hle =>
      rw [hstate]
      exact ⟨_, _, hsince, hle, hmax⟩
    | dropping _ hstate => simp [hstate] at hoversize
  · intro hactive hoversize
    cases h with
    | inactive hnot => simp [hnot] at hactive
    | collecting _ hstate => simp [hstate] at hoversize
    | dropping _ _ _ hdata => rw [hdata, List.length_nil]
  · intro call hfinish
    cases assemble_cases call (afterCalls calls) with
    | thrown hresult => simp [hresult] at hfinish
    | short hresult => simp [hresult] at hfinish
    | read _ hresult hassembly =>
      obtain ⟨start, datas, hsince, -, hdata, hsize⟩ := h.finish (Except.ok.inj (hresult.symm.trans hfinish))
      rw [hassembly]
      exact ⟨start, datas, hsince, hdata, hsize⟩

end ClipboardChunk

end InputLeap.Protocol
