import InputLeap.Io.StreamBuffer
import InputLeap.Lib.BigEndian

/-! The filter that cuts a stream into packets, each preceded by its length in four bytes. It is
written over any queue of bytes, and its runs over a `StreamBuffer` are those over the bytes held. -/

namespace InputLeap.Protocol

open InputLeap.Lib InputLeap.Lib.ByteQueue InputLeap.Io

def maxMessageLength : ℕ := 4 * 1024 * 1024

inductive StreamEvent
  | inputReady
  | inputShutdown
  | inputFormatError
  deriving DecidableEq

structure PacketStreamFilter (β : Type) where
  size : ℕ
  buffer : β
  inputShutdown : Bool

/-- Something that happens to the filter: an event of the underlying stream, where `reads` are its
answers to the reads that follow, or a read by the consumer. -/
inductive Op
  | inputReady (reads : List (List UInt8))
  | inputShutdown
  | read (n : ℕ)
  deriving DecidableEq

/-- The bytes that an event brings: an empty answer ends the reads. -/
def Op.arrived : Op → List UInt8
  | .inputReady reads => (reads.takeWhile (· ≠ [])).flatten
  | _ => []

@[simp] lemma Op.arrived_inputReady_nil : (Op.inputReady []).arrived = [] := rfl

lemma Op.arrived_inputReady_cons {data : List UInt8} (h : data ≠ []) (reads : List (List UInt8)) :
    (Op.inputReady (data :: reads)).arrived = data ++ (Op.inputReady reads).arrived := by
  simp [Op.arrived, h]

structure Output where
  bytes : List UInt8
  events : List StreamEvent

namespace PacketStreamFilter

variable {β γ : Type} [ByteQueue β] [ByteQueue γ]

def new : PacketStreamFilter β where
  size := 0
  buffer := empty
  inputShutdown := false

def isReady (f : PacketStreamFilter β) : Bool := f.size != 0 && decide (f.size ≤ getSize f.buffer)

/-- The second component is the result of the function: `false` after a format error. -/
def readPacketSize (f : PacketStreamFilter β) : PacketStreamFilter β × Bool :=
  if f.size = 0 ∧ 4 ≤ getSize f.buffer then
    let (header, buffer) := peek f.buffer 4
    let size := BigEndian.decode header
    ({ f with size := size, buffer := pop buffer 4 }, decide (size ≤ maxMessageLength))
  else (f, true)

/-- The loop of `readMore`: an empty answer ends it, and so does a format error. -/
def readLoop (f : PacketStreamFilter β) : List (List UInt8) → PacketStreamFilter β × List StreamEvent
  | [] => (f, [])
  | data :: reads =>
    if data = [] then (f, [])
    else
      let (g, ok) := { f with buffer := write f.buffer data }.readPacketSize
      if ok then g.readLoop reads else (g, [.inputFormatError])

def readMore (f : PacketStreamFilter β) (reads : List (List UInt8)) :
    PacketStreamFilter β × List StreamEvent × Bool :=
  let (g, events) := f.readLoop reads
  (g, events, f.isReady != g.isReady)

def read (f : PacketStreamFilter β) (n : ℕ) : PacketStreamFilter β × Output :=
  if n = 0 then (f, ⟨[], []⟩)
  else if !f.isReady then (f, ⟨[], []⟩)
  else
    let n := min n f.size
    let (bytes, buffer) := peek f.buffer n
    let (g, ok) := { f with size := f.size - n, buffer := pop buffer n }.readPacketSize
    (g, ⟨bytes, (if ok then [] else [.inputFormatError]) ++
      if g.inputShutdown && g.size == 0 then [.inputShutdown] else []⟩)

def filterInputReady (f : PacketStreamFilter β) (reads : List (List UInt8)) :
    PacketStreamFilter β × Output :=
  let (g, events, changed) := f.readMore reads
  (g, ⟨[], events ++ if changed then [.inputReady] else []⟩)

def filterInputShutdown (f : PacketStreamFilter β) : PacketStreamFilter β × Output :=
  let f := { f with inputShutdown := true }
  if f.size ≠ 0 then
    if f.size ≤ getSize f.buffer then (f, ⟨[], []⟩)
    else ({ f with size := 0 }, ⟨[], [.inputFormatError, .inputShutdown]⟩)
  else (f, ⟨[], [.inputShutdown]⟩)

def step (f : PacketStreamFilter β) : Op → PacketStreamFilter β × Output
  | .inputReady reads => f.filterInputReady reads
  | .inputShutdown => f.filterInputShutdown
  | .read n => f.read n

def run (f : PacketStreamFilter β) : List Op → PacketStreamFilter β × List Output
  | [] => (f, [])
  | op :: ops =>
    let (g, out) := f.step op
    let (h, outs) := g.run ops
    (h, out :: outs)

def write (payload : List UInt8) : List UInt8 := BigEndian.encode 4 payload.length ++ payload

lemma run_cons (f : PacketStreamFilter β) (op : Op) (ops : List Op) :
    f.run (op :: ops) = (((f.step op).1.run ops).1, (f.step op).2 :: ((f.step op).1.run ops).2) := rfl

lemma run_append (f : PacketStreamFilter β) (ops more : List Op) :
    f.run (ops ++ more) =
      (((f.run ops).1.run more).1, (f.run ops).2 ++ ((f.run ops).1.run more).2) := by
  induction ops generalizing f with
  | nil => rfl
  | cons op ops ih => simp [run, ih]

/-- While a packet has begun no length is looked for. -/
lemma readPacketSize_begun {f : PacketStreamFilter β} (hs : f.size ≠ 0) : f.readPacketSize = (f, true) :=
  if_neg fun h => hs h.1

section Map

def map (q : β → γ) (f : PacketStreamFilter β) : PacketStreamFilter γ where
  size := f.size
  buffer := q f.buffer
  inputShutdown := f.inputShutdown

variable {q : β → γ} {held : β → ℕ} {m : ℕ} (hq : ByteQueue.Hom held m q)
include hq

lemma new_map : (new : PacketStreamFilter β).map q = new := by
  simp [map, new, hq.empty]

lemma isReady_map (f : PacketStreamFilter β) : (f.map q).isReady = f.isReady := by
  simp [isReady, map, hq.getSize]

lemma readPacketSize_held (f : PacketStreamFilter β) : held f.readPacketSize.1.buffer ≤ held f.buffer := by
  rw [readPacketSize]
  split_ifs
  · exact (hq.held_pop _ 4).trans (hq.held_peek _ 4).le
  · rfl

lemma readPacketSize_map {f : PacketStreamFilter β} (hheld : held f.buffer < m) :
    (f.map q).readPacketSize = (f.readPacketSize.1.map q, f.readPacketSize.2) := by
  simp only [readPacketSize, map, hq.getSize]
  split_ifs with h
  · have hpop := hq.pop ((hq.held_peek f.buffer 4).trans_lt hheld) 4
    simp only [hq.peek_fst _ h.2, hpop, hq.peek_snd]
  · rfl

lemma write_map (f : PacketStreamFilter β) (data : List UInt8) :
    { f.map q with buffer := ByteQueue.write (f.map q).buffer data } =
      { f with buffer := ByteQueue.write f.buffer data }.map q := by
  simp [map, hq.write]

lemma readLoop_held (f : PacketStreamFilter β) (reads : List (List UInt8)) :
    held (f.readLoop reads).1.buffer ≤ held f.buffer + (Op.inputReady reads).arrived.length := by
  induction reads generalizing f with
  | nil => rfl
  | cons data reads ih =>
    by_cases hdata : data = []
    · simp [readLoop, hdata]
    · have hle := readPacketSize_held hq { f with buffer := ByteQueue.write f.buffer data }
      rw [hq.held_write] at hle
      rw [readLoop, if_neg hdata, Op.arrived_inputReady_cons hdata, List.length_append]
      dsimp only
      split_ifs
      · have hrest := ih { f with buffer := ByteQueue.write f.buffer data }.readPacketSize.1
        omega
      · exact hle.trans (by omega)

lemma readLoop_map {f : PacketStreamFilter β} {reads : List (List UInt8)}
    (hheld : held f.buffer + (Op.inputReady reads).arrived.length < m) :
    (f.map q).readLoop reads = ((f.readLoop reads).1.map q, (f.readLoop reads).2) := by
  induction reads generalizing f with
  | nil => rfl
  | cons data reads ih =>
    by_cases hdata : data = []
    · simp [readLoop, hdata]
    · rw [Op.arrived_inputReady_cons hdata, List.length_append] at hheld
      have hwrite : held { f with buffer := ByteQueue.write f.buffer data }.buffer < m := by
        rw [hq.held_write]
        omega
      have hle := readPacketSize_held hq { f with buffer := ByteQueue.write f.buffer data }
      rw [hq.held_write] at hle
      rw [readLoop, readLoop, if_neg hdata, if_neg hdata, write_map hq, readPacketSize_map hq hwrite]
      dsimp only
      split_ifs
      · exact ih (by omega)
      · rfl

lemma readLoop_map_begun {f : PacketStreamFilter β} (hs : f.size ≠ 0) (reads : List (List UInt8)) :
    (f.map q).readLoop reads = ((f.readLoop reads).1.map q, (f.readLoop reads).2) := by
  induction reads generalizing f with
  | nil => rfl
  | cons data reads ih =>
    by_cases hdata : data = []
    · simp [readLoop, hdata]
    · have hbegun := readPacketSize_begun (f := { f with buffer := ByteQueue.write f.buffer data }) hs
      have hbegun' := readPacketSize_begun (f := { f with buffer := ByteQueue.write f.buffer data }.map q) hs
      rw [readLoop, readLoop, if_neg hdata, if_neg hdata, write_map hq, hbegun, hbegun']
      exact ih hs

lemma readLoop_map_first {f : PacketStreamFilter β} {data : List UInt8} (hheld : held f.buffer + data.length < m)
    (hs : { f with buffer := ByteQueue.write f.buffer data }.readPacketSize.1.size ≠ 0) (reads : List (List UInt8)) :
    (f.map q).readLoop (data :: reads) =
      ((f.readLoop (data :: reads)).1.map q, (f.readLoop (data :: reads)).2) := by
  have hwrite : held { f with buffer := ByteQueue.write f.buffer data }.buffer < m := by rwa [hq.held_write]
  rw [readLoop, readLoop]
  by_cases hdata : data = []
  · simp only [if_pos hdata]
  · rw [if_neg hdata, if_neg hdata, write_map hq, readPacketSize_map hq hwrite]
    dsimp only
    split_ifs
    · exact readLoop_map_begun hq hs reads
    · rfl

lemma read_held (f : PacketStreamFilter β) (n : ℕ) : held (f.read n).1.buffer ≤ held f.buffer := by
  rw [read]
  split_ifs
  · rfl
  · rfl
  · refine (readPacketSize_held hq _).trans ?_
    exact (hq.held_pop _ _).trans (hq.held_peek _ _).le

lemma read_map {f : PacketStreamFilter β} (hheld : held f.buffer < m) (n : ℕ) :
    (f.map q).read n = ((f.read n).1.map q, (f.read n).2) := by
  rw [read, read, isReady_map hq]
  split_ifs with h0 hr
  · rfl
  · rfl
  · have hn : min n f.size ≤ getSize f.buffer := by
      simp only [isReady, bne_iff_ne, Bool.and_eq_true, decide_eq_true_eq, Bool.not_eq_true',
        Bool.not_eq_false] at hr
      exact (Nat.min_le_right _ _).trans hr.2
    have hpeek := (hq.held_peek f.buffer (min n f.size)).trans_lt hheld
    have hp : { f.map q with
          size := f.size - min n f.size
          buffer := pop (peek (f.map q).buffer (min n f.size)).2 (min n f.size) } =
        { f with
          size := f.size - min n f.size
          buffer := pop (peek f.buffer (min n f.size)).2 (min n f.size) }.map q := by
      simp [map, hq.pop hpeek, hq.peek_snd]
    have hb : (peek (f.map q).buffer (min n f.size)).1 = (peek f.buffer (min n f.size)).1 :=
      hq.peek_fst f.buffer hn
    have hs : (f.map q).size = f.size := rfl
    have hpopped : held (pop (peek f.buffer (min n f.size)).2 (min n f.size)) < m := (hq.held_pop _ _).trans_lt hpeek
    simp only [hs, hb, hp]
    rw [readPacketSize_map hq hpopped]
    rfl

lemma step_held (f : PacketStreamFilter β) (op : Op) :
    held (f.step op).1.buffer ≤ held f.buffer + op.arrived.length := by
  cases op with
  | inputReady reads => exact readLoop_held hq f reads
  | inputShutdown =>
    simp only [step, filterInputShutdown]
    split_ifs <;> exact Nat.le_add_right _ _
  | read n => exact read_held hq f n

lemma step_map {f : PacketStreamFilter β} {op : Op} (hheld : held f.buffer + op.arrived.length < m) :
    (f.map q).step op = ((f.step op).1.map q, (f.step op).2) := by
  cases op with
  | inputReady reads =>
    simp only [step, filterInputReady, readMore, readLoop_map hq hheld, isReady_map hq]
    rfl
  | inputShutdown =>
    simp only [step, filterInputShutdown, map, hq.getSize]
    split_ifs <;> rfl
  | read n => exact read_map hq hheld n

end Map

end PacketStreamFilter

end InputLeap.Protocol
