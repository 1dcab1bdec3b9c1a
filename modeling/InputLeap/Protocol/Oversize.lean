import InputLeap.Protocol.Framing

/-! A packet that announces more than a message may have is an error, which is reported, but its
length stays in the filter: if as many bytes follow, the packet is delivered like any other. -/

namespace InputLeap.Protocol

open InputLeap.Lib InputLeap.Lib.ByteQueue InputLeap.Io

/-- After whole packets of allowed length, the stream has one that is longer, and whole. -/
inductive Oversized : List UInt8 → Prop
  | here {header payload rest : List UInt8} (hheader : header.length = 4)
      (hpayload : payload.length = BigEndian.decode header) (hmax : maxMessageLength < payload.length) :
      Oversized (header ++ (payload ++ rest))
  | later {header payload rest : List UInt8} (hheader : header.length = 4)
      (hpayload : payload.length = BigEndian.decode header) (hmax : payload.length ≤ maxMessageLength)
      (h : Oversized rest) : Oversized (header ++ (payload ++ rest))

/-- Input arrives in pieces of the size of the buffer of `readMore` or less. -/
def Op.Ordinary : Op → Prop
  | .inputReady reads => ∀ data ∈ reads, data.length ≤ 4096
  | .inputShutdown => False
  | .read n => n < 2 ^ 32

lemma Op.arrived_singletons (bytes : List UInt8) : (Op.inputReady (bytes.map fun b => [b])).arrived = bytes := by
  rw [Op.arrived, List.takeWhile_eq_self_iff.mpr (by simp)]
  simp [← List.flatMap_def]

namespace PacketStreamFilter

variable {β γ : Type} [ByteQueue β] [ByteQueue γ]

protected def getSize (f : PacketStreamFilter β) : ℕ := if f.isReady then f.size else 0

def taken (f : PacketStreamFilter β) : List (List UInt8) → List UInt8
  | [] => []
  | data :: reads =>
    if data = [] then []
    else
      let (g, ok) := { f with buffer := ByteQueue.write f.buffer data }.readPacketSize
      if ok then data ++ g.taken reads else data

def takenBy (f : PacketStreamFilter β) : Op → List UInt8
  | .inputReady reads => f.taken reads
  | _ => []

def streamOf (f : PacketStreamFilter β) : List Op → List UInt8
  | [] => []
  | op :: ops => f.takenBy op ++ (f.step op).1.streamOf ops

/-- The length that the header of the current packet declares, given the one before. -/
def nextDeclared (f : PacketStreamFilter β) (declared : ℕ) (op : Op) : ℕ :=
  if f.size = 0 ∨ f.endsPacket op then (f.step op).1.size else declared

def declaredAfter (f : PacketStreamFilter β) (declared : ℕ) : List Op → ℕ
  | [] => declared
  | op :: ops => (f.step op).1.declaredAfter (f.nextDeclared declared op) ops

section Map

variable {q : β → γ} {held : β → ℕ} {m : ℕ} (hq : ByteQueue.Hom held m q)
include hq

lemma taken_map {f : PacketStreamFilter β} {reads : List (List UInt8)}
    (hheld : held f.buffer + (Op.inputReady reads).arrived.length < m) : (f.map q).taken reads = f.taken reads := by
  induction reads generalizing f with
  | nil => rfl
  | cons data reads ih =>
    by_cases hdata : data = []
    · simp [taken, hdata]
    · rw [Op.arrived_inputReady_cons hdata, List.length_append] at hheld
      have hwrite : held { f with buffer := ByteQueue.write f.buffer data }.buffer < m := by
        rw [hq.held_write]
        omega
      have hle := readPacketSize_held hq { f with buffer := ByteQueue.write f.buffer data }
      rw [hq.held_write] at hle
      rw [taken, taken, if_neg hdata, if_neg hdata, write_map hq, readPacketSize_map hq hwrite]
      dsimp only
      rw [ih (by omega)]

lemma takenBy_map {f : PacketStreamFilter β} {op : Op} (hheld : held f.buffer + op.arrived.length < m) :
    (f.map q).takenBy op = f.takenBy op := by
  cases op with
  | inputReady reads => exact taken_map hq hheld
  | _ => rfl

lemma nextDeclared_map {f : PacketStreamFilter β} {op : Op} (hheld : held f.buffer + op.arrived.length < m)
    (declared : ℕ) : (f.map q).nextDeclared declared op = f.nextDeclared declared op := by
  simp only [nextDeclared, step_map hq hheld, endsPacket_map hq]
  rfl

end Map

end PacketStreamFilter

namespace Framer

open PacketStreamFilter hiding read write

variable {f : Framer} {declared size : ℕ} {rest future : List UInt8}

/-- `rest` is what is held and what is to come, of which `size` bytes belong to the current packet:
no oversized packet in it is whole. -/
inductive Guarded (declared size : ℕ) (rest : List UInt8) : Prop
  | between (hsize : size = 0) (h : ¬ Oversized rest)
  | within (hle : size ≤ declared) (hmax : declared ≤ maxMessageLength) (hsize : size ≠ 0)
      (h : size ≤ rest.length → ¬ Oversized (rest.drop size))
  | stuck (hlt : rest.length < size)

lemma Guarded.not_oversized (h : Guarded declared 0 rest) : ¬ Oversized rest := by
  cases h with
  | between _ h => exact h
  | within _ _ hsize => exact absurd rfl hsize
  | stuck hlt => omega

lemma Guarded.of_header {header : List UInt8} (hheader : header.length = 4) (h : ¬ Oversized (header ++ rest)) :
    Guarded (BigEndian.decode header) (BigEndian.decode header) rest := by
  rcases Nat.lt_or_ge rest.length (BigEndian.decode header) with hcut | hwhole
  · exact .stuck hcut
  · have hpayload : (rest.take (BigEndian.decode header)).length = BigEndian.decode header := by
      rw [List.length_take, min_eq_left hwhole]
    rw [← List.take_append_drop (BigEndian.decode header) rest] at h
    rcases Nat.lt_or_ge maxMessageLength (BigEndian.decode header) with hmax | hmax
    · exact absurd (.here hheader hpayload (by rwa [hpayload])) h
    · have hlater : ¬ Oversized (rest.drop (BigEndian.decode header)) := by
        intro hover
        exact h (.later hheader hpayload (by rwa [hpayload]) hover)
      by_cases hzero : BigEndian.decode header = 0
      · rw [hzero, List.drop_zero] at hlater
        exact .between hzero hlater
      · exact .within le_rfl hmax hzero fun _ => hlater

lemma Guarded.readPacketSize (hsize : f.size = 0) (hheld : f.buffer.bytes.length < 2 ^ 32)
    (h : ¬ Oversized (f.buffer.bytes ++ future)) :
    Guarded f.readPacketSize.1.size f.readPacketSize.1.size (f.readPacketSize.1.buffer.bytes ++ future) := by
  have hmod := Nat.mod_eq_of_lt hheld
  rcases Nat.lt_or_ge f.buffer.bytes.length 4 with h4 | h4
  · rw [readPacketSize_wait (.inr (by rwa [hmod]))]
    exact .between hsize h
  · rw [readPacketSize_header hsize (by rwa [hmod])]
    apply Guarded.of_header
    · rw [List.length_take, min_eq_left h4]
    · rwa [Counted.pop_bytes hheld, ← List.append_assoc, List.take_append_drop]

lemma taken_within (hsize : f.size ≠ 0) (reads : List (List UInt8)) :
    f.taken reads = (Op.inputReady reads).arrived := by
  induction reads generalizing f with
  | nil => rfl
  | cons data reads ih =>
    by_cases hdata : data = []
    · simp [taken, Op.arrived, hdata]
    · have hwait := readPacketSize_wait (f := { f with buffer := write f.buffer data }) (.inl hsize)
      have hrest := ih (f := { f with buffer := write f.buffer data }) hsize
      rw [taken, if_neg hdata, hwait, Op.arrived_inputReady_cons hdata, ← hrest]
      rfl

lemma Guarded.readLoop_within {reads : List (List UInt8)} (hsize : f.size ≠ 0)
    (h : Guarded declared f.size (f.buffer.bytes ++ (f.taken reads ++ future))) :
    Guarded declared (f.readLoop reads).1.size ((f.readLoop reads).1.buffer.bytes ++ future) := by
  rw [Framer.readLoop_within hsize]
  dsimp only
  rwa [Counted.write_bytes, ← taken_within hsize, List.append_assoc]

lemma Guarded.readLoop_between {reads : List (List UInt8)} (hsize : f.size = 0)
    (hheld : f.buffer.bytes.length + (Op.inputReady reads).arrived.length < 2 ^ 32)
    (h : ¬ Oversized (f.buffer.bytes ++ (f.taken reads ++ future))) :
    Guarded (f.readLoop reads).1.size (f.readLoop reads).1.size
      ((f.readLoop reads).1.buffer.bytes ++ future) := by
  induction reads generalizing f with
  | nil => exact .between hsize h
  | cons data reads ih =>
    by_cases hdata : data = []
    · simp only [taken, hdata, if_true, List.nil_append] at h
      simp only [readLoop, hdata, if_true]
      exact .between hsize h
    · rw [Op.arrived_inputReady_cons hdata, List.length_append] at hheld
      rw [taken, if_neg hdata] at h
      rw [readLoop, if_neg hdata]
      generalize hw : ({ f with buffer := write f.buffer data } : Framer) = w at h ⊢
      have hzero : w.size = 0 := by rw [← hw]; exact hsize
      have hbytes : w.buffer.bytes = f.buffer.bytes ++ data := by rw [← hw]; exact Counted.write_bytes _ _
      have hlength : w.buffer.bytes.length = f.buffer.bytes.length + data.length := by
        rw [hbytes, List.length_append]
      have hle := readPacketSize_length_le w
      have hheader : ∀ future, ¬ Oversized (f.buffer.bytes ++ data ++ future) → Guarded w.readPacketSize.1.size
          w.readPacketSize.1.size (w.readPacketSize.1.buffer.bytes ++ future) := by
        intro future hover
        exact Guarded.readPacketSize hzero (by omega) (by rwa [hbytes])
      generalize w.readPacketSize = header at h hheader hle ⊢
      obtain ⟨g, ok⟩ := header
      cases ok with
      | false => exact hheader future (by simpa using h)
      | true =>
        replace hheader := hheader (g.taken reads ++ future) (by simpa using h)
        by_cases hg : g.size = 0
        · rw [hg] at hheader
          exact ih hg (by dsimp only at hle; omega) hheader.not_oversized
        · have hsame : (g.readLoop reads).1.size = g.size := by rw [Framer.readLoop_within hg]
          have hloop := Guarded.readLoop_within hg hheader
          rw [hsame] at hloop
          simp only [if_true]
          rwa [hsame]

lemma Guarded.drop {n : ℕ} (hn : n < size) (hwhole : size ≤ rest.length) (h : Guarded declared size rest) :
    Guarded declared (size - n) (rest.drop n) := by
  cases h with
  | between hsize => omega
  | within hle hmax hsize h =>
    apply within (by omega) hmax (by omega)
    intro _
    rw [List.drop_drop, Nat.add_sub_cancel' hn.le]
    exact h hwhole
  | stuck hlt => omega

lemma Guarded.drop_all (hsize : size ≠ 0) (hwhole : size ≤ rest.length) (h : Guarded declared size rest) :
    ¬ Oversized (rest.drop size) := by
  cases h with
  | between hzero => exact absurd hzero hsize
  | within _ _ _ h => exact h hwhole
  | stuck hlt => omega

lemma Guarded.read {n : ℕ} (hheld : f.buffer.bytes.length < 2 ^ 32)
    (h : Guarded declared f.size (f.buffer.bytes ++ future)) :
    Guarded (f.nextDeclared declared (.read n)) (f.read n).1.size ((f.read n).1.buffer.bytes ++ future) := by
  rw [nextDeclared, step]
  rcases read_cases f n with hnone | ⟨hr, h0, hn⟩ | ⟨hr, h0, hn⟩
  · rw [read_none hnone, endsPacket_none hnone]
    by_cases hsize : f.size = 0
    · rw [if_pos (.inl hsize)]
      rw [hsize] at h
      exact .between hsize h.not_oversized
    · rw [if_neg (by simpa using hsize)]
      exact h
  · obtain ⟨hsize, hready⟩ := (isReady_iff_of_lt hheld).mp hr
    rw [Framer.read_within hr h0 hn, endsPacket_within hn, if_neg (by simpa using hsize)]
    have hdrop := h.drop hn (by rw [List.length_append]; omega)
    rwa [List.drop_append_of_le_length (by omega)] at hdrop
  · obtain ⟨hsize, hready⟩ := (isReady_iff_of_lt hheld).mp hr
    have hdrop := h.drop_all hsize (by rw [List.length_append]; omega)
    rw [List.drop_append_of_le_length hready, ← Counted.pop_bytes hheld] at hdrop
    rw [Framer.read_end hr hn, endsPacket_end hr h0 hn, if_pos (.inr rfl)]
    apply Guarded.readPacketSize rfl _ hdrop
    exact (pop_length_le f.buffer f.size).trans_lt hheld

lemma Guarded.step {op : Op} (hop : op.Ordinary)
    (hheld : f.buffer.bytes.length + op.arrived.length < 2 ^ 32)
    (h : Guarded declared f.size (f.buffer.bytes ++ (f.takenBy op ++ future))) :
    Guarded (f.nextDeclared declared op) (f.step op).1.size ((f.step op).1.buffer.bytes ++ future) := by
  cases op with
  | inputReady reads =>
    change Guarded (if f.size = 0 ∨ false = true then (f.readLoop reads).1.size else declared)
      (f.readLoop reads).1.size ((f.readLoop reads).1.buffer.bytes ++ future)
    by_cases hsize : f.size = 0
    · rw [if_pos (.inl hsize)]
      rw [hsize] at h
      exact Guarded.readLoop_between hsize hheld h.not_oversized
    · rw [if_neg (by simpa using hsize)]
      exact Guarded.readLoop_within hsize h
  | inputShutdown => exact hop.elim
  | read n => exact Guarded.read (by simpa [Op.arrived] using hheld) h

lemma Guarded.not_ready (hheld : f.buffer.bytes.length < 2 ^ 32) (hmax : maxMessageLength < declared)
    (h : Guarded declared f.size (f.buffer.bytes ++ future)) : f.isReady = false := by
  rw [← Bool.not_eq_true, isReady_iff_of_lt hheld]
  rintro ⟨hsize, hready⟩
  cases h with
  | between hzero => exact hsize hzero
  | within _ hle => omega
  | stuck hlt =>
    rw [List.length_append] at hlt
    omega

lemma step_header {header : List UInt8} (hsize : f.size = 0) (hempty : f.buffer.bytes = [])
    (hheader : header.length = 4) :
    (f.step (.inputReady [header])).1 = { f with size := BigEndian.decode header, buffer := ⟨[]⟩ } ∧
      f.takenBy (.inputReady [header]) = header := by
  have hne : header ≠ [] := by
    intro hnil
    simp [hnil] at hheader
  have hwrite : write f.buffer header = ⟨header⟩ := by
    apply Counted.ext
    rw [Counted.write_bytes, hempty, List.nil_append]
  have hread : ({ f with buffer := write f.buffer header } : Framer).readPacketSize =
      ({ f with size := BigEndian.decode header, buffer := ⟨[]⟩ },
        decide (BigEndian.decode header ≤ maxMessageLength)) := by
    rw [hwrite, readPacketSize_header (f := { f with buffer := ⟨header⟩ }) hsize (by simp [hheader])]
    simp [List.take_of_length_le hheader.le, Counted.pop_def, hheader]
  constructor
  · simp only [step, filterInputReady, readMore, readLoop, if_neg hne, hread]
    split_ifs <;> rfl
  · simp only [takenBy, taken, if_neg hne, hread, List.append_nil, ite_self]

lemma step_payload {payload : List UInt8} (hsize : f.size = payload.length) (hempty : f.buffer.bytes = []) :
    (f.step (.inputReady (payload.map fun b => [b]))).1 = { f with buffer := ⟨payload⟩ } ∧
      f.takenBy (.inputReady (payload.map fun b => [b])) = payload := by
  have hwrite : write f.buffer payload = ⟨payload⟩ := by
    apply Counted.ext
    rw [Counted.write_bytes, hempty, List.nil_append]
  cases payload with
  | nil =>
    have hbuffer : f.buffer = ⟨[]⟩ := Counted.ext hempty
    exact ⟨by rw [← hbuffer]; rfl, rfl⟩
  | cons b payload =>
    have hne : f.size ≠ 0 := by simp [hsize]
    constructor
    · simp only [step, filterInputReady, readMore, readLoop_within hne, Op.arrived_singletons, hwrite]
    · rw [takenBy, taken_within hne, Op.arrived_singletons]

lemma step_read_all (hsize : f.size = f.buffer.bytes.length) (hheld : f.buffer.bytes.length < 2 ^ 32) :
    (f.step (.read f.size)).1 = { f with size := 0, buffer := ⟨[]⟩ } := by
  by_cases hzero : f.size = 0
  · have hempty : f.buffer = ⟨[]⟩ := Counted.ext (List.length_eq_zero_iff.mp (hsize.symm.trans hzero))
    rw [step, read_none (.inl hzero), ← hempty, ← hzero]
  · have hr : f.isReady = true := (isReady_iff_of_lt hheld).mpr ⟨hzero, hsize.le⟩
    have hpop : pop f.buffer f.size = ⟨[]⟩ := by
      apply Counted.ext
      rw [Counted.pop_bytes hheld, hsize, List.drop_length]
    rw [step, Framer.read_end hr le_rfl, hpop, readPacketSize_wait (.inr (by simp))]

end Framer

namespace PacketStreamFilter

variable {f : PacketStreamFilter StreamBuffer} {declared : ℕ} {future : List UInt8}

lemma framer_takenBy {op : Op} (h : f.buffer.stored + op.arrived.length < 2 ^ 32) :
    f.framer.takenBy op = f.takenBy op := takenBy_map StreamBuffer.held_hom h

lemma guarded_run {ops : List Op} (hops : ∀ op ∈ ops, op.Ordinary) (hheld : f.buffer.stored < 2 ^ 32)
    (hfits : f.Fits ops) (h : Framer.Guarded declared f.size (f.buffer.toList ++ (f.streamOf ops ++ future))) :
    Framer.Guarded (f.declaredAfter declared ops) (f.run ops).1.size ((f.run ops).1.buffer.toList ++ future) ∧
      (f.run ops).1.buffer.stored < 2 ^ 32 := by
  induction ops generalizing f declared with
  | nil => exact ⟨h, hheld⟩
  | cons op ops ih =>
    obtain ⟨hroom, hfits⟩ := hfits
    have hbytes : f.framer.buffer.bytes.length ≤ f.buffer.stored := f.buffer.toList_length_le
    have hnext : f.framer.nextDeclared declared op = f.nextDeclared declared op :=
      nextDeclared_map StreamBuffer.held_hom hroom declared
    rw [streamOf, List.append_assoc, ← framer_takenBy hroom] at h
    have hg := Framer.Guarded.step (f := f.framer) (hops op (by simp)) (by omega) h
    have hle := step_stored f op
    rw [framer_step hroom, hnext] at hg
    exact ih (fun o ho => hops o (by simp [ho])) (hle.trans_lt hroom) hfits hg

/-- Nothing of a packet longer than a message may be is reported to the consumer or read. -/
def KeepsLimit (ops : List Op) : Prop :=
  maxMessageLength < (new : PacketStreamFilter StreamBuffer).declaredAfter 0 ops →
    (afterOps ops).isReady = false ∧ (afterOps ops).getSize = 0 ∧ ∀ n, ((afterOps ops).read n).2.bytes = []

lemma keepsLimit_of_not_oversized {ops : List Op} (hops : ∀ op ∈ ops, op.Ordinary) (hfits : new.Fits ops)
    (h : ¬ Oversized ((new : PacketStreamFilter StreamBuffer).streamOf ops ++ future)) : KeepsLimit ops := by
  intro hmax
  obtain ⟨hg, hheld⟩ := guarded_run (f := new) hops (by decide) hfits
    (show Framer.Guarded 0 _ _ from .between rfl h)
  have hready : (afterOps ops).isReady = false := by
    rw [← framer_isReady]
    exact hg.not_ready (f := (afterOps ops).framer) ((StreamBuffer.toList_length_le _).trans_lt hheld) hmax
  refine ⟨hready, by simp [PacketStreamFilter.getSize, hready], ?_⟩
  intro n
  simp [PacketStreamFilter.read, hready]

structure Plays (f : PacketStreamFilter StreamBuffer) (declared : ℕ) (ops : List Op) (stream : List UInt8)
    (g : PacketStreamFilter StreamBuffer) (declared' : ℕ) : Prop where
  ordinary : ∀ op ∈ ops, op.Ordinary
  fits : f.Fits ops
  stream : f.streamOf ops = stream
  run : (f.run ops).1 = g
  declared : f.declaredAfter declared ops = declared'

lemma Plays.single {g : PacketStreamFilter StreamBuffer} {declared' : ℕ} {op : Op} {stream : List UInt8}
    (hop : op.Ordinary) (hroom : f.buffer.stored + op.arrived.length < 2 ^ 32)
    (htaken : f.takenBy op = stream) (hstep : (f.step op).1 = g) (hnext : f.nextDeclared declared op = declared') :
    Plays f declared [op] stream g declared' where
  ordinary := by simpa using hop
  fits := ⟨hroom, trivial⟩
  stream := by simpa [streamOf] using htaken
  run := hstep
  declared := hnext

lemma Plays.trans {g h : PacketStreamFilter StreamBuffer} {between declared' : ℕ} {ops more : List Op}
    {stream further : List UInt8} (hfirst : Plays f declared ops stream g between)
    (hmore : Plays g between more further h declared') :
    Plays f declared (ops ++ more) (stream ++ further) h declared' := by
  obtain ⟨hordinary, hfits, rfl, rfl, rfl⟩ := hfirst
  induction ops generalizing f declared with
  | nil => exact hmore
  | cons op ops ih =>
    have hrest := ih (fun o ho => hordinary o (by simp [ho])) hfits.2 hmore
    exact {
      ordinary := List.forall_mem_cons.mpr ⟨hordinary op (by simp), hrest.ordinary⟩
      fits := ⟨hfits.1, hrest.fits⟩
      stream := by rw [List.cons_append, streamOf, streamOf, hrest.stream, List.append_assoc]
      run := hrest.run
      declared := hrest.declared }

def Idle (f : PacketStreamFilter StreamBuffer) : Prop := f.size = 0 ∧ f.buffer.toList = []

section Deliver

variable {header payload : List UInt8} (hheader : header.length = 4)
  (hpayload : payload.length = BigEndian.decode header)
include hheader hpayload

lemma declared_lt : payload.length < 2 ^ 32 := by
  rw [hpayload]
  apply (BigEndian.decode_lt header).trans_eq
  rw [hheader]
  norm_num

lemma Idle.exists_deliver (hidle : f.Idle) (declared : ℕ) :
    ∃ g, Plays f declared [.inputReady [header], .inputReady (payload.map fun b => [b])] (header ++ payload) g
      payload.length ∧ g.size = payload.length ∧ g.buffer.toList = payload ∧ g.buffer.stored < 2 ^ 32 := by
  obtain ⟨hzero, hempty⟩ := hidle
  have hlt := declared_lt hheader hpayload
  have hroom : f.buffer.stored + (Op.inputReady [header]).arrived.length < 2 ^ 32 := by
    rw [StreamBuffer.stored_of_empty hempty, Op.arrived,
      List.takeWhile_eq_self_iff.mpr (by simpa using List.ne_nil_of_length_pos (by omega))]
    simp [hheader]
  obtain ⟨hstep, htaken⟩ := Framer.step_header (f := f.framer) hzero hempty hheader
  rw [framer_step hroom] at hstep
  rw [framer_takenBy hroom] at htaken
  generalize hg : (f.step (.inputReady [header])).1 = g at hstep
  have hgsize : g.size = payload.length := (congrArg size hstep).trans hpayload.symm
  have hgempty : g.buffer.toList = [] := congrArg (fun f : Framer => f.buffer.bytes) hstep
  have hroom' : g.buffer.stored + (Op.inputReady (payload.map fun b => [b])).arrived.length < 2 ^ 32 := by
    rwa [StreamBuffer.stored_of_empty hgempty, Op.arrived_singletons, Nat.zero_add]
  obtain ⟨hstep', htaken'⟩ := Framer.step_payload (f := g.framer) hgsize hgempty
  rw [framer_step hroom'] at hstep'
  rw [framer_takenBy hroom'] at htaken'
  have hstored := (step_stored g (.inputReady (payload.map fun b => [b]))).trans_lt hroom'
  generalize hh : (g.step (.inputReady (payload.map fun b => [b]))).1 = h at hstep' hstored
  have hhsize : h.size = payload.length := (congrArg size hstep').trans hgsize
  refine ⟨h, ?_, hhsize, congrArg (fun f : Framer => f.buffer.bytes) hstep', hstored⟩
  apply Plays.trans (Plays.single _ hroom htaken hg rfl) (Plays.single _ hroom' htaken' hh _)
  · simp [Op.Ordinary, hheader]
  · simp [Op.Ordinary]
  · simp only [nextDeclared, hg, hh, hzero, hgsize, hhsize, true_or, if_true, ite_self]

lemma Idle.exists_read (hidle : f.Idle) (declared : ℕ) :
    ∃ ops g declared', Plays f declared ops (header ++ payload) g declared' ∧ g.Idle := by
  obtain ⟨g, hplays, hsize, hbytes, hstored⟩ := hidle.exists_deliver hheader hpayload declared
  have hlt : g.size < 2 ^ 32 := hsize ▸ declared_lt hheader hpayload
  have hall : g.size = g.buffer.toList.length := by rw [hsize, hbytes]
  have hstep := Framer.step_read_all (f := g.framer) hall (hall ▸ hlt)
  rw [@framer_step g (.read g.framer.size) hstored] at hstep
  have hread : Plays g payload.length [.read g.size] [] (g.step (.read g.size)).1
      (g.nextDeclared payload.length (.read g.size)) := Plays.single hlt hstored rfl rfl rfl
  have hboth := hplays.trans hread
  rw [List.append_nil] at hboth
  refine ⟨_, _, _, hboth, ?_⟩
  exact ⟨congrArg size hstep, congrArg (fun f : Framer => f.buffer.bytes) hstep⟩

end Deliver

lemma isReady_of_held (hsize : f.size = f.buffer.toList.length) (hlt : f.size < 2 ^ 32) (hne : f.size ≠ 0) :
    f.isReady = true := by
  rw [← framer_isReady]
  exact (Framer.isReady_iff_of_lt (f := f.framer) (hsize ▸ hlt)).mpr ⟨hne, hsize.le⟩

lemma Idle.exists_delivered {bytes : List UInt8} (h : Oversized bytes) (hidle : f.Idle) (declared : ℕ) :
    ∃ ops stream g declared', Plays f declared ops stream g declared' ∧ stream <+: bytes ∧
      g.isReady = true ∧ maxMessageLength < declared' := by
  induction h generalizing f declared with
  | @here header payload rest hheader hpayload hmax =>
    obtain ⟨g, hplays, hsize, hbytes, -⟩ := hidle.exists_deliver hheader hpayload declared
    refine ⟨_, _, g, _, hplays, ?_, ?_, hmax⟩
    · rw [← List.append_assoc]
      exact List.prefix_append _ _
    · apply isReady_of_held (by rw [hsize, hbytes]) (hsize ▸ declared_lt hheader hpayload)
      omega
  | @later header payload rest hheader hpayload _ _ ih =>
    obtain ⟨ops, g, between, hplays, hidle'⟩ := hidle.exists_read hheader hpayload declared
    obtain ⟨more, further, h, declared', hmore, hpre, hready, hover⟩ := ih hidle' between
    refine ⟨_, _, h, declared', hplays.trans hmore, ?_, hready, hover⟩
    rwa [← List.append_assoc, List.prefix_append_right_inj]

/-- For a stream, the limit is kept however it arrives and is read, as long as the buffer can count what it
holds, if and only if the stream has no oversized packet that is whole. -/
theorem keepsLimit_iff_not_oversized (bytes : List UInt8) :
    (∀ ops : List Op, (∀ op ∈ ops, op.Ordinary) → new.Fits ops →
      (new : PacketStreamFilter StreamBuffer).streamOf ops <+: bytes → KeepsLimit ops) ↔ ¬ Oversized bytes := by
  constructor
  · intro hkeeps hover
    obtain ⟨ops, stream, g, declared, hplays, hpre, hready, hmax⟩ :=
      Idle.exists_delivered (f := new) hover ⟨rfl, rfl⟩ 0
    obtain ⟨hordinary, hfits, rfl, rfl, rfl⟩ := hplays
    obtain ⟨hnot, -⟩ := hkeeps ops hordinary hfits hpre hmax
    exact absurd (hready.symm.trans hnot) (by decide)
  · rintro hover ops hops hfits ⟨future, rfl⟩
    exact keepsLimit_of_not_oversized hops hfits hover

lemma not_keepsLimit_deliver {header payload : List UInt8} (hheader : header.length = 4)
    (hpayload : payload.length = BigEndian.decode header) (hmax : maxMessageLength < payload.length) :
    ∃ ops : List Op, (∀ op ∈ ops, op.Ordinary) ∧ new.Fits ops ∧
      (new : PacketStreamFilter StreamBuffer).streamOf ops = header ++ payload ∧ ¬ KeepsLimit ops := by
  obtain ⟨g, hplays, hsize, hbytes, -⟩ := Idle.exists_deliver (f := new) hheader hpayload ⟨rfl, rfl⟩ 0
  have hready : g.isReady = true := by
    apply isReady_of_held (by rw [hsize, hbytes]) (hsize ▸ declared_lt hheader hpayload)
    omega
  obtain ⟨hordinary, hfits, hstream, rfl, hdeclared⟩ := hplays
  refine ⟨_, hordinary, hfits, hstream, ?_⟩
  intro hkeeps
  obtain ⟨hnot, -⟩ := hkeeps (hdeclared ▸ hmax)
  exact absurd (hready.symm.trans hnot) (by decide)

/-- A length of one more than the limit, and as many bytes: the packet is reported like any other. -/
theorem oversized_packet_reported :
    ∃ ops : List Op, (∀ op ∈ ops, op.Ordinary) ∧ new.Fits ops ∧
      (new : PacketStreamFilter StreamBuffer).streamOf ops =
        BigEndian.encode 4 (maxMessageLength + 1) ++ List.replicate (maxMessageLength + 1) 0 ∧
      ¬ KeepsLimit ops := by
  apply not_keepsLimit_deliver (BigEndian.encode_length 4 (maxMessageLength + 1))
  · rw [List.length_replicate, BigEndian.decode_encode (by decide)]
  · rw [List.length_replicate]
    omega

end PacketStreamFilter

end InputLeap.Protocol
