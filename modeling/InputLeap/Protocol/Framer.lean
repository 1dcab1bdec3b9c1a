import InputLeap.Protocol.PacketStreamFilter

/-! The packet filter over the bytes it holds, and what each of its operations does to them. -/

namespace InputLeap.Protocol

open InputLeap.Lib InputLeap.Lib.ByteQueue InputLeap.Io

abbrev Framer := PacketStreamFilter (Counted (2 ^ 32))

namespace PacketStreamFilter

def afterOps (ops : List Op) : PacketStreamFilter StreamBuffer := (new.run ops).1

def framer (f : PacketStreamFilter StreamBuffer) : Framer := f.map StreamBuffer.held

lemma framer_new : (new : PacketStreamFilter StreamBuffer).framer = new := new_map StreamBuffer.held_hom

lemma framer_isReady (f : PacketStreamFilter StreamBuffer) : f.framer.isReady = f.isReady :=
  isReady_map StreamBuffer.held_hom f

lemma step_stored (f : PacketStreamFilter StreamBuffer) (op : Op) :
    (f.step op).1.buffer.stored ≤ f.buffer.stored + op.arrived.length := step_held StreamBuffer.held_hom f op

lemma read_stored (f : PacketStreamFilter StreamBuffer) (n : ℕ) : (f.read n).1.buffer.stored ≤ f.buffer.stored :=
  read_held StreamBuffer.held_hom f n

lemma framer_read {f : PacketStreamFilter StreamBuffer} (h : f.buffer.stored < 2 ^ 32) (n : ℕ) :
    f.framer.read n = ((f.read n).1.framer, (f.read n).2) := read_map StreamBuffer.held_hom h n

lemma framer_step {f : PacketStreamFilter StreamBuffer} {op : Op}
    (h : f.buffer.stored + op.arrived.length < 2 ^ 32) :
    f.framer.step op = ((f.step op).1.framer, (f.step op).2) := step_map StreamBuffer.held_hom h

end PacketStreamFilter

namespace Framer

open PacketStreamFilter hiding read write

variable {f : Framer} {n : ℕ}

lemma isReady_iff : f.isReady = true ↔ f.size ≠ 0 ∧ f.size ≤ f.buffer.bytes.length % 2 ^ 32 := by
  simp [isReady]

lemma isReady_iff_of_lt (hlt : f.buffer.bytes.length < 2 ^ 32) :
    f.isReady = true ↔ f.size ≠ 0 ∧ f.size ≤ f.buffer.bytes.length := by
  rw [isReady_iff, Nat.mod_eq_of_lt hlt]

lemma readPacketSize_header (hs : f.size = 0) (h4 : 4 ≤ f.buffer.bytes.length % 2 ^ 32) :
    f.readPacketSize =
      ({ f with size := BigEndian.decode (f.buffer.bytes.take 4), buffer := pop f.buffer 4 },
        decide (BigEndian.decode (f.buffer.bytes.take 4) ≤ maxMessageLength)) := by
  rw [readPacketSize, if_pos ⟨hs, h4⟩, Counted.peek_def]

lemma readPacketSize_wait (h : f.size ≠ 0 ∨ f.buffer.bytes.length % 2 ^ 32 < 4) :
    f.readPacketSize = (f, true) := by
  rw [readPacketSize, if_neg]
  rintro ⟨hs, h4⟩
  rw [Counted.getSize_def] at h4
  omega

lemma readPacketSize_inputShutdown (f : Framer) :
    f.readPacketSize.1.inputShutdown = f.inputShutdown := by
  rw [readPacketSize]
  split_ifs <;> rfl

lemma pop_length_le (b : Counted (2 ^ 32)) (n : ℕ) : (pop b n).bytes.length ≤ b.bytes.length := by
  rw [Counted.pop_def]
  split_ifs <;> simp

lemma readPacketSize_length_le (f : Framer) :
    f.readPacketSize.1.buffer.bytes.length ≤ f.buffer.bytes.length := by
  rw [readPacketSize]
  split_ifs
  · exact pop_length_le f.buffer 4
  · rfl

lemma readLoop_within (hs : f.size ≠ 0) (reads : List (List UInt8)) :
    f.readLoop reads = ({ f with buffer := write f.buffer (Op.inputReady reads).arrived }, []) := by
  have hnil : ∀ g : Framer, { g with buffer := write g.buffer [] } = g := by
    intro g
    rw [show ByteQueue.write g.buffer [] = g.buffer from Counted.ext (by simp)]
  induction reads generalizing f with
  | nil => rw [readLoop, Op.arrived_inputReady_nil, hnil]
  | cons data reads ih =>
    by_cases hdata : data = []
    · simp [readLoop, Op.arrived, hdata, hnil]
    · have hwait := readPacketSize_wait (f := { f with buffer := write f.buffer data }) (.inl hs)
      have hrest := ih (f := { f with buffer := write f.buffer data }) hs
      rw [readLoop, if_neg hdata, hwait]
      simp only [if_true]
      rw [hrest, Op.arrived_inputReady_cons hdata]
      simp [ByteQueue.write]

lemma read_within (hr : f.isReady = true) (h0 : n ≠ 0) (hn : n < f.size) :
    f.read n =
      ({ f with size := f.size - n, buffer := ⟨f.buffer.bytes.drop n⟩ }, ⟨f.buffer.bytes.take n, []⟩) := by
  obtain ⟨-, hle⟩ := isReady_iff.mp hr
  have hpop : pop f.buffer n = ⟨f.buffer.bytes.drop n⟩ := by
    rw [Counted.pop_def, if_neg (by omega)]
  have hleft : f.size - n ≠ 0 := by omega
  rw [PacketStreamFilter.read, if_neg h0, hr, min_eq_left hn.le]
  simp only [Counted.peek_def, hpop]
  rw [readPacketSize_wait (.inl hleft)]
  simp [hleft]

lemma read_end (hr : f.isReady = true) (hn : f.size ≤ n) :
    f.read n =
      let (g, ok) := { f with size := 0, buffer := pop f.buffer f.size }.readPacketSize
      (g, ⟨f.buffer.bytes.take f.size, (if ok then [] else [.inputFormatError]) ++
        if f.inputShutdown && g.size == 0 then [.inputShutdown] else []⟩) := by
  obtain ⟨hs, -⟩ := isReady_iff.mp hr
  have hshut := readPacketSize_inputShutdown { f with size := 0, buffer := pop f.buffer f.size }
  rw [PacketStreamFilter.read, if_neg (by omega), hr, min_eq_right hn]
  simp only [Counted.peek_def, Nat.sub_self, hshut]
  rfl

lemma read_none (h : n = 0 ∨ f.isReady = false) : f.read n = (f, ⟨[], []⟩) := by
  rw [PacketStreamFilter.read]
  rcases h with h | h
  · rw [if_pos h]
  · simp [h]

lemma read_cases (f : Framer) (n : ℕ) :
    (n = 0 ∨ f.isReady = false) ∨ (f.isReady = true ∧ n ≠ 0 ∧ n < f.size) ∨ (f.isReady = true ∧ n ≠ 0 ∧ f.size ≤ n) := by
  by_cases hnone : n = 0 ∨ f.isReady = false
  · exact .inl hnone
  · obtain ⟨h0, hr⟩ : n ≠ 0 ∧ f.isReady = true := by simpa using hnone
    rcases Nat.lt_or_ge n f.size with hn | hn
    · exact .inr (.inl ⟨hr, h0, hn⟩)
    · exact .inr (.inr ⟨hr, h0, hn⟩)

end Framer

end InputLeap.Protocol
