import InputLeap.Protocol.Framer

/-! How often the end of input is reported. A complete packet defers the report to the read that
ends the last packet, and a packet cut short behind it takes that read's place. -/

namespace InputLeap.Protocol

open InputLeap.Lib InputLeap.Lib.ByteQueue InputLeap.Io

def shutdowns (outs : List Output) : ℕ := (outs.flatMap Output.events).count .inputShutdown

/-- A packet of `size` bytes begins at the head of the buffer, and the last packet whose length is
in the buffer is not complete. -/
inductive CutShort : ℕ → Counted (2 ^ 32) → Prop
  | last {size : ℕ} {b : Counted (2 ^ 32)} (hs : size ≠ 0) (hlt : getSize b < size) : CutShort size b
  | next {size : ℕ} {b : Counted (2 ^ 32)} (hs : size ≠ 0) (hle : size ≤ getSize b)
      (h4 : 4 ≤ getSize (pop b size))
      (hrest : CutShort (BigEndian.decode ((pop b size).bytes.take 4)) (pop (pop b size) 4)) :
      CutShort size b

lemma not_cutShort_zero (b : Counted (2 ^ 32)) : ¬ CutShort 0 b := by
  rintro (⟨hs, -⟩ | ⟨hs, -⟩)
  · exact hs rfl
  · exact hs rfl

namespace Framer

open PacketStreamFilter hiding read write

variable {f : Framer} {n : ℕ}

lemma pop_drop {b : Counted (2 ^ 32)} {size : ℕ} (hn : n < size) (hle : size ≤ getSize b) :
    getSize (⟨b.bytes.drop n⟩ : Counted (2 ^ 32)) = getSize b - n ∧
      pop ⟨b.bytes.drop n⟩ (size - n) = pop b size := by
  simp only [Counted.getSize_def, List.length_drop, Counted.pop_def] at hle ⊢
  have hmod : (b.bytes.length - n) % 2 ^ 32 = b.bytes.length % 2 ^ 32 - n := by omega
  refine ⟨hmod, ?_⟩
  have hiff : (b.bytes.length - n) % 2 ^ 32 ≤ size - n ↔ b.bytes.length % 2 ^ 32 ≤ size := by omega
  simp only [hiff, List.drop_drop, show n + (size - n) = size by omega]

lemma isReady_drop (hr : f.isReady = true) (hn : n < f.size) :
    ({ f with size := f.size - n, buffer := ⟨f.buffer.bytes.drop n⟩ } : Framer).isReady = f.isReady := by
  obtain ⟨-, hle⟩ := isReady_iff.mp hr
  have hget := (pop_drop hn hle).1
  rw [Counted.getSize_def] at hget
  rw [hr]
  refine isReady_iff.mpr ⟨?_, ?_⟩
  · change f.size - n ≠ 0
    omega
  · change f.size - n ≤ _
    rw [hget]
    exact Nat.sub_le_sub_right hle n

lemma cutShort_drop {b : Counted (2 ^ 32)} {size : ℕ} (hn : n < size) (hle : size ≤ getSize b) :
    CutShort (size - n) ⟨b.bytes.drop n⟩ ↔ CutShort size b := by
  obtain ⟨hget, hpop⟩ := pop_drop hn hle
  constructor
  · rintro (⟨-, hlt⟩ | ⟨-, hle', h4, hrest⟩)
    · omega
    · rw [hpop] at h4 hrest
      exact .next (by omega) hle h4 hrest
  · rintro (⟨-, hlt⟩ | ⟨-, hle', h4, hrest⟩)
    · omega
    · rw [← hpop] at h4 hrest
      exact .next (by omega) (by omega) h4 hrest

def popPacket (f : Framer) : Framer := { f with size := 0, buffer := pop f.buffer f.size }.readPacketSize.1

lemma popPacket_inputShutdown (f : Framer) : f.popPacket.inputShutdown = f.inputShutdown :=
  readPacketSize_inputShutdown _

lemma cutShort_popPacket (hr : f.isReady = true) :
    CutShort f.popPacket.size f.popPacket.buffer ↔ CutShort f.size f.buffer := by
  obtain ⟨hs, hle⟩ := isReady_iff.mp hr
  rw [popPacket]
  rcases Nat.lt_or_ge (getSize (pop f.buffer f.size)) 4 with h4 | h4
  · rw [readPacketSize_wait (.inr h4)]
    apply iff_of_false (not_cutShort_zero _)
    rintro (⟨-, hlt⟩ | ⟨-, -, h4', -⟩)
    · exact absurd hle (Nat.not_le.mpr hlt)
    · exact absurd h4' (Nat.not_le.mpr h4)
  · rw [readPacketSize_header rfl h4]
    refine ⟨fun h => .next hs hle h4 h, ?_⟩
    rintro (⟨-, hlt⟩ | ⟨-, -, -, hrest⟩)
    · exact absurd hle (Nat.not_le.mpr hlt)
    · exact hrest

lemma read_end_shutdowns (hr : f.isReady = true) (hn : f.size ≤ n) :
    (f.read n).1 = f.popPacket ∧
      shutdowns [(f.read n).2] = if f.inputShutdown = true ∧ f.popPacket.size = 0 then 1 else 0 := by
  rw [read_end hr hn]
  refine ⟨rfl, ?_⟩
  have hsize : ({ f with size := 0, buffer := pop f.buffer f.size } : Framer).readPacketSize.1.size =
      f.popPacket.size := rfl
  simp only [shutdowns, List.flatMap_singleton, List.count_append, hsize, beq_iff_eq, Bool.and_eq_true]
  split_ifs <;> simp

lemma shutdowns_cons (out : Output) (outs : List Output) :
    shutdowns (out :: outs) = shutdowns [out] + shutdowns outs := by
  simp [shutdowns]

lemma shutdowns_append (outs more : List Output) :
    shutdowns (outs ++ more) = shutdowns outs + shutdowns more := by
  simp [shutdowns]

lemma filterInputReady_nothing {reads : List (List UInt8)} (h : (Op.inputReady reads).arrived = []) :
    f.filterInputReady reads = (f, ⟨[], []⟩) := by
  have hloop : f.readLoop reads = (f, []) := by
    cases reads with
    | nil => rfl
    | cons data reads =>
      have hdata : data = [] := by
        by_contra hne
        simp [Op.arrived_inputReady_cons hne, hne] at h
      rw [readLoop, if_pos hdata]
  simp [filterInputReady, readMore, hloop]

section Owed

open Classical in
/-- The reports that reading the complete packets will give once the end of input has been signalled. -/
noncomputable def owed (f : Framer) : ℕ := if f.isReady = true ∧ ¬ CutShort f.size f.buffer then 1 else 0

lemma owed_not_ready (h : f.isReady = false) : owed f = 0 := by
  simp [owed, h]

lemma owed_drop (hr : f.isReady = true) (hn : n < f.size) :
    owed { f with size := f.size - n, buffer := ⟨f.buffer.bytes.drop n⟩ } = owed f := by
  obtain ⟨-, hle⟩ := isReady_iff.mp hr
  rw [owed, owed, isReady_drop hr hn, cutShort_drop hn hle]

lemma owed_popPacket (hr : f.isReady = true) :
    (if f.popPacket.size = 0 then 1 else 0) + owed f.popPacket = owed f := by
  by_cases hz : f.popPacket.size = 0
  · have hcut : ¬ CutShort f.size f.buffer := by
      rw [← cutShort_popPacket hr, hz]
      exact not_cutShort_zero _
    have hr' : f.popPacket.isReady = false := by simp [isReady, hz]
    rw [owed_not_ready hr']
    simp [owed, hz, hr, hcut]
  · rcases Nat.lt_or_ge (getSize f.popPacket.buffer) f.popPacket.size with hlt | hge
    · have hcut : CutShort f.size f.buffer := (cutShort_popPacket hr).mp (.last hz hlt)
      simp [owed, hz, cutShort_popPacket hr, hcut]
    · have hr' : f.popPacket.isReady = true := isReady_iff.mpr ⟨hz, hge⟩
      rw [owed, owed, cutShort_popPacket hr, hr, hr', if_neg hz, zero_add]

variable (hshut : f.inputShutdown = true)
include hshut

lemma read_owed (n : ℕ) :
    (f.read n).1.inputShutdown = true ∧ shutdowns [(f.read n).2] + owed (f.read n).1 = owed f := by
  rcases read_cases f n with hnone | ⟨hr, h0, hn⟩ | ⟨hr, -, hn⟩
  · rw [read_none hnone]
    exact ⟨hshut, by simp [shutdowns]⟩
  · rw [read_within hr h0 hn]
    exact ⟨hshut, by simp [shutdowns, owed_drop hr hn]⟩
  · obtain ⟨hg, hcount⟩ := read_end_shutdowns hr hn
    rw [hg, hcount, popPacket_inputShutdown, ← owed_popPacket hr]
    simp only [hshut, true_and]

lemma step_owed {op : Op} (hop : op ≠ .inputShutdown) (hnothing : op.arrived = []) :
    (f.step op).1.inputShutdown = true ∧ shutdowns [(f.step op).2] + owed (f.step op).1 = owed f := by
  cases op with
  | inputShutdown => exact absurd rfl hop
  | inputReady reads =>
    have hstep : f.step (.inputReady reads) = (f, ⟨[], []⟩) := filterInputReady_nothing hnothing
    rw [hstep]
    exact ⟨hshut, by simp [shutdowns]⟩
  | read n => exact read_owed hshut n

lemma run_owed {ops : List Op} (hops : ∀ op ∈ ops, op ≠ .inputShutdown ∧ op.arrived = []) :
    shutdowns (f.run ops).2 + owed (f.run ops).1 = owed f := by
  induction ops generalizing f with
  | nil => simp [run, shutdowns]
  | cons op ops ih =>
    obtain ⟨hop, hnothing⟩ := hops op (by simp)
    obtain ⟨hshut', hstep⟩ := step_owed hshut hop hnothing
    rw [run_cons, shutdowns_cons, add_assoc, ih hshut' fun o ho => hops o (by simp [ho]), hstep]

lemma shutdowns_drained {ops : List Op} (hops : ∀ op ∈ ops, op ≠ .inputShutdown ∧ op.arrived = [])
    (hdrained : (f.run ops).1.isReady = false) : shutdowns (f.run ops).2 = owed f := by
  have howed := run_owed hshut hops
  rwa [owed_not_ready hdrained, add_zero] at howed

end Owed

lemma filterInputShutdown_ready (hr : f.isReady = true) :
    f.filterInputShutdown = ({ f with inputShutdown := true }, ⟨[], []⟩) := by
  obtain ⟨hs, hle⟩ := isReady_iff.mp hr
  have hget : f.size ≤ getSize f.buffer := hle
  simp only [filterInputShutdown, if_pos hs, if_pos hget]

lemma filterInputShutdown_not_ready (hr : f.isReady = false) :
    f.filterInputShutdown.1.isReady = false ∧ f.filterInputShutdown.1.inputShutdown = true ∧
      shutdowns [f.filterInputShutdown.2] = 1 := by
  have hne : ¬ (f.size ≠ 0 ∧ f.size ≤ getSize f.buffer) := fun h => by
    simp [isReady_iff.mpr h] at hr
  simp only [filterInputShutdown]
  split_ifs with hs hle
  · exact absurd ⟨hs, hle⟩ hne
  · exact ⟨rfl, rfl, by simp [shutdowns]⟩
  · exact ⟨hr, rfl, by simp [shutdowns]⟩

lemma shutdowns_iff {after : List Op} (hafter : ∀ op ∈ after, op ≠ .inputShutdown ∧ op.arrived = [])
    (hdrained : (f.run (.inputShutdown :: after)).1.isReady = false) :
    shutdowns (f.run (.inputShutdown :: after)).2 = 1 ↔ ¬ (f.isReady = true ∧ CutShort f.size f.buffer) := by
  rw [run_cons] at hdrained ⊢
  rw [shutdowns_cons]
  replace hdrained : ((f.filterInputShutdown).1.run after).1.isReady = false := hdrained
  change shutdowns [f.filterInputShutdown.2] + shutdowns ((f.filterInputShutdown).1.run after).2 = 1 ↔ _
  cases hr : f.isReady with
  | true =>
    rw [filterInputShutdown_ready hr] at hdrained ⊢
    have hready : ({ f with inputShutdown := true } : Framer).isReady = true := hr
    rw [shutdowns_drained (f := { f with inputShutdown := true }) rfl hafter hdrained, owed, hready]
    by_cases hcut : CutShort f.size f.buffer
    · simp [hcut, shutdowns]
    · simp [hcut, shutdowns]
  | false =>
    obtain ⟨hr', hshut', hone⟩ := filterInputShutdown_not_ready hr
    rw [hone, shutdowns_drained hshut' hafter hdrained, owed_not_ready hr']
    simp

end Framer

namespace PacketStreamFilter

section NoShutdown

variable {β : Type} [ByteQueue β] {f : PacketStreamFilter β}

lemma readPacketSize_keeps_shutdown (f : PacketStreamFilter β) : f.readPacketSize.1.inputShutdown = f.inputShutdown := by
  rw [readPacketSize]
  split_ifs <;> rfl

lemma readLoop_no_shutdown (f : PacketStreamFilter β) (reads : List (List UInt8)) :
    (f.readLoop reads).1.inputShutdown = f.inputShutdown ∧
      (f.readLoop reads).2.count .inputShutdown = 0 := by
  induction reads generalizing f with
  | nil => exact ⟨rfl, rfl⟩
  | cons data reads ih =>
    have hkeep := readPacketSize_keeps_shutdown { f with buffer := ByteQueue.write f.buffer data }
    rw [readLoop]
    split_ifs
    · exact ⟨rfl, rfl⟩
    · dsimp only
      split_ifs
      · exact ⟨(ih _).1.trans hkeep, (ih _).2⟩
      · exact ⟨hkeep, by simp⟩

lemma read_no_shutdown (hshut : f.inputShutdown = false) (n : ℕ) :
    (f.read n).1.inputShutdown = false ∧ shutdowns [(f.read n).2] = 0 := by
  rw [PacketStreamFilter.read]
  split_ifs
  · exact ⟨hshut, rfl⟩
  · exact ⟨hshut, rfl⟩
  · have hkeep := (readPacketSize_keeps_shutdown { f with
        size := f.size - min n f.size
        buffer := pop (peek f.buffer (min n f.size)).2 (min n f.size) }).trans hshut
    refine ⟨hkeep, ?_⟩
    simp only [hkeep, Bool.false_and, Bool.false_eq_true, if_false, List.append_nil, shutdowns,
      List.flatMap_singleton]
    split_ifs <;> rfl

lemma step_no_shutdown {op : Op} (hop : op ≠ .inputShutdown) (hshut : f.inputShutdown = false) :
    (f.step op).1.inputShutdown = false ∧ shutdowns [(f.step op).2] = 0 := by
  cases op with
  | inputShutdown => exact absurd rfl hop
  | inputReady reads =>
    obtain ⟨hkeep, hnone⟩ := readLoop_no_shutdown f reads
    refine ⟨hkeep.trans hshut, ?_⟩
    have hready : ∀ b : Bool, (if b then [StreamEvent.inputReady] else []).count .inputShutdown = 0 := by
      decide
    simp only [step, filterInputReady, readMore, shutdowns, List.flatMap_singleton, List.count_append, hnone,
      Nat.zero_add]
    exact hready _
  | read n => exact read_no_shutdown hshut n

lemma run_no_shutdown {ops : List Op} (hops : ∀ op ∈ ops, op ≠ .inputShutdown)
    (hshut : f.inputShutdown = false) :
    (f.run ops).1.inputShutdown = false ∧ shutdowns (f.run ops).2 = 0 := by
  induction ops generalizing f with
  | nil => exact ⟨hshut, rfl⟩
  | cons op ops ih =>
    obtain ⟨hkeep, hnone⟩ := step_no_shutdown (hops op (by simp)) hshut
    obtain ⟨hkeep', hnone'⟩ := ih (fun o ho => hops o (by simp [ho])) hkeep
    refine ⟨hkeep', ?_⟩
    rw [run_cons, Framer.shutdowns_cons, hnone, hnone']

end NoShutdown

lemma framer_run_still {f : PacketStreamFilter StreamBuffer} (hstored : f.buffer.stored < 2 ^ 32) {ops : List Op}
    (hops : ∀ op ∈ ops, op.arrived = []) : f.framer.run ops = ((f.run ops).1.framer, (f.run ops).2) := by
  induction ops generalizing f with
  | nil => rfl
  | cons op ops ih =>
    have hroom : f.buffer.stored + op.arrived.length < 2 ^ 32 := by simpa [hops op (by simp)] using hstored
    rw [run_cons, run_cons, framer_step hroom,
      ih ((step_stored f op).trans_lt hroom) fun o ho => hops o (by simp [ho])]

/-- Once the consumer has read every complete packet, the end of input has been reported exactly
once, unless a complete packet was held when it came and one cut short was behind it. -/
theorem shutdown_reported_once_iff {before after : List Op} (hbefore : ∀ op ∈ before, op ≠ .inputShutdown)
    (hafter : ∀ op ∈ after, op ≠ .inputShutdown ∧ op.arrived = [])
    (hstored : (afterOps before).buffer.stored < 2 ^ 32)
    (hdrained : (afterOps (before ++ .inputShutdown :: after)).isReady = false) :
    shutdowns ((new : PacketStreamFilter StreamBuffer).run (before ++ .inputShutdown :: after)).2 = 1 ↔
      ¬ ((afterOps before).isReady = true ∧
        CutShort (afterOps before).size (afterOps before).buffer.held) := by
  have hstill : ∀ op ∈ .inputShutdown :: after, op.arrived = [] := by
    intro op hop
    rcases List.mem_cons.mp hop with rfl | hop
    · rfl
    · exact (hafter op hop).2
  have hnone : shutdowns ((new : PacketStreamFilter StreamBuffer).run before).2 = 0 :=
    (run_no_shutdown hbefore rfl).2
  have hrun := framer_run_still hstored hstill
  rw [afterOps, run_append] at hdrained
  rw [run_append, Framer.shutdowns_append, hnone, Nat.zero_add, ← framer_isReady]
  have hiff := Framer.shutdowns_iff (f := (afterOps before).framer) hafter (by rwa [hrun, framer_isReady])
  rwa [hrun] at hiff

theorem shutdown_reported_once :
    shutdowns ((new : PacketStreamFilter StreamBuffer).run
      [.inputReady [[0, 0, 0, 1, 7, 0, 0]], .inputShutdown, .read 1]).2 = 1 :=
  (@shutdown_reported_once_iff [.inputReady [[0, 0, 0, 1, 7, 0, 0]]] [.read 1]
    (by decide) (by decide) (by decide) (by decide)).mpr (by
      rintro ⟨-, ⟨-, hlt⟩ | ⟨-, -, h4, -⟩⟩
      · exact absurd hlt (by decide)
      · exact absurd h4 (by decide))

/-- A complete packet and the length of another: the last read reports nothing. -/
theorem shutdown_not_reported :
    ¬ ∀ before after : List Op, (∀ op ∈ before, op ≠ .inputShutdown) →
      (∀ op ∈ after, op ≠ .inputShutdown ∧ op.arrived = []) →
      (afterOps (before ++ .inputShutdown :: after)).isReady = false →
      shutdowns ((new : PacketStreamFilter StreamBuffer).run (before ++ .inputShutdown :: after)).2 = 1 := by
  intro h
  have hone := h [.inputReady [[0, 0, 0, 1, 7, 0, 0, 0, 2, 8]]] [.read 1] (by decide) (by decide) (by decide)
  revert hone
  decide

end PacketStreamFilter

end InputLeap.Protocol
