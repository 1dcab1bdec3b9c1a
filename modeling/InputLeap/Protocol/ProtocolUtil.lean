import InputLeap.Lib.Reader
import InputLeap.Protocol.EndOfInput

/-! Messages are read by format. A read takes bytes until it has its count, and a stream of packets
goes on to the next packet by itself, so a message that is too short takes bytes of the next one. -/

namespace InputLeap.Protocol

open InputLeap.Lib InputLeap.Lib.ByteQueue InputLeap.Io

namespace ProtocolUtil

def maxListLength : ℕ := 1024 * 1024

def maxStringLength : ℕ := 1024 * 1024

/-- What a format asks for, item by item. `invalid` fails an assertion. -/
inductive Directive
  | int (len : ℕ)
  | list (len : ℕ)
  | string
  | percent
  | literal (c : Char)
  | invalid
  deriving DecidableEq

def specifier (len : ℕ) (c : Char) : Directive :=
  let valid := len = 1 ∨ len = 2 ∨ len = 4
  if c = 'i' ∧ valid then .int len
  else if c = 'I' ∧ valid then .list len
  else if c = 's' ∧ len = 0 then .string
  else if c = '%' ∧ len = 0 then .percent
  else .invalid

/-- Scan a format; the first argument is the length that `eatLength` has got so far when the scan is
within a specifier. -/
def scan : Option ℕ → List Char → List Directive
  | none, [] => []
  | some _, [] => [.invalid]
  | none, c :: fmt => if c = '%' then scan (some 0) fmt else .literal c :: scan none fmt
  | some len, c :: fmt =>
    if c.isDigit then scan (some ((10 * len + (c.toNat - 48)) % 2 ^ 32)) fmt
    else specifier len c :: scan none fmt

inductive ReadError
  | endOfStream
  | readMismatch
  | badClient
  | assertion
  deriving DecidableEq

def ReadError.isIo : ReadError → Bool
  | endOfStream => true
  | readMismatch => true
  | _ => false

/-- What is stored in the arguments. The entries after `list` are added to the same list. -/
inductive Stored
  | int (value : ℕ)
  | list
  | entry (value : ℕ)
  | string (bytes : List UInt8)
  deriving DecidableEq

abbrev Program := Reader ReadError Stored

def readEntries (len : ℕ) (next : Program) : ℕ → Program
  | 0 => next
  | n + 1 => .read len fun bytes => .store (.entry (BigEndian.decode bytes)) (readEntries len next n)

def readDirective (next : Program) : Directive → Program
  | .int len => .read len fun bytes => .store (.int (BigEndian.decode bytes)) next
  | .list len => .read 4 fun bytes =>
      let n := BigEndian.decode bytes
      if maxListLength < n then .throw .badClient else .store .list (readEntries len next n)
  | .string => .read 4 fun bytes =>
      let n := BigEndian.decode bytes
      if maxStringLength < n then .throw .badClient
      else .read n fun bytes => .store (.string bytes) next
  | .percent => next
  | .literal c => .read 1 fun bytes => if bytes = [c.toUInt8] then next else .throw .readMismatch
  | .invalid => .throw .assertion

def vreadf (fmt : List Char) : Program := (scan none fmt).foldr (fun d next => readDirective next d) .done

def readfResult : Except ReadError Unit → Except ReadError Bool
  | .ok () => .ok true
  | .error e => if e.isIo then .ok false else .error e

instance {β : Type} [ByteQueue β] : ByteSource (PacketStreamFilter β) where
  read f n := ((f.read n).2.bytes, (f.read n).1)

def readf {β : Type} [ByteQueue β] (fmt : List Char) (f : PacketStreamFilter β) :
    Except ReadError Bool × Reader.Outcome ReadError Stored (PacketStreamFilter β) :=
  let o := (vreadf fmt).run .endOfStream f
  (readfResult o.result, o)

end ProtocolUtil

namespace Framer

open PacketStreamFilter hiding read write

variable {f : Framer} {n : ℕ}

def packet (f : Framer) : List UInt8 := f.buffer.bytes.take f.size

lemma packet_length (hr : f.isReady = true) : f.packet.length = f.size := by
  obtain ⟨-, hle⟩ := isReady_iff.mp hr
  have := Nat.mod_le f.buffer.bytes.length (2 ^ 32)
  rw [packet, List.length_take]
  omega

lemma packet_ne_nil (hr : f.isReady = true) : f.packet ≠ [] := by
  intro hp
  have hlen := packet_length hr
  rw [hp] at hlen
  exact (isReady_iff.mp hr).1 hlen.symm

def Gives (last : Framer) (block : List UInt8) (f : Framer) : Prop :=
  (f.isReady = true ∧ f.packet = block ∧ f.popPacket = last) ∨ (block = [] ∧ f = last)

lemma Gives.read {last : Framer} {block : List UInt8} (h : Gives last block f) (hne : block ≠ [])
    (h0 : n ≠ 0) : (f.read n).2.bytes = block.take n ∧ Gives last (block.drop n) (f.read n).1 := by
  rcases h with ⟨hr, rfl, rfl⟩ | ⟨hnil, -⟩
  · rcases Nat.lt_or_ge n f.size with hn | hn
    · obtain ⟨-, hle⟩ := isReady_iff.mp hr
      obtain ⟨-, hpop⟩ := pop_drop hn hle
      rw [read_within hr h0 hn]
      refine ⟨?_, .inl ⟨(isReady_drop hr hn).trans hr, ?_, ?_⟩⟩
      · rw [packet, List.take_take, min_eq_left hn.le]
      · rw [packet, packet, List.drop_take]
      · rw [popPacket, popPacket, hpop]
    · have hlen := packet_length hr
      rw [List.take_of_length_le (by omega), List.drop_of_length_le (by omega), read_end hr hn]
      exact ⟨rfl, .inr ⟨rfl, rfl⟩⟩
  · exact absurd hnil hne

end Framer

namespace PacketStreamFilter

def packet (f : PacketStreamFilter StreamBuffer) : List UInt8 := f.buffer.toList.take f.size

def followed (f : PacketStreamFilter StreamBuffer) : Bool :=
  let rest := pop f.buffer.held f.size
  let size := BigEndian.decode (rest.bytes.take 4)
  decide (4 ≤ getSize rest) && size != 0 && decide (size ≤ getSize (pop rest 4))

lemma followed_eq (f : PacketStreamFilter StreamBuffer) : f.followed = f.framer.popPacket.isReady := by
  rw [Framer.popPacket, followed]
  rcases Nat.lt_or_ge (getSize (pop f.buffer.held f.size)) 4 with h4 | h4
  · rw [Framer.readPacketSize_wait (.inr h4)]
    simp only [decide_eq_false (Nat.not_le.mpr h4), Bool.false_and]
    rfl
  · rw [Framer.readPacketSize_header rfl h4]
    simp only [decide_eq_true h4, Bool.true_and]
    rfl

lemma blocks_packet (last : Framer) :
    Reader.Blocks (fun block (g : PacketStreamFilter StreamBuffer) =>
      Framer.Gives last block g.framer ∧ g.buffer.stored < 2 ^ 32)
      (fun g => g.framer = last ∧ g.buffer.stored < 2 ^ 32) where
  nil := by
    rintro g ⟨⟨hr, hp, -⟩ | ⟨-, h⟩, hstored⟩
    · exact absurd hp (Framer.packet_ne_nil hr)
    · exact ⟨h, hstored⟩
  read {block g n} := by
    rintro ⟨h, hstored⟩ hne h0
    obtain ⟨hbytes, hgives⟩ := h.read hne h0
    rw [framer_read hstored] at hbytes hgives
    exact ⟨hbytes, hgives, (read_stored g n).trans_lt hstored⟩

lemma read_bytes_eq_nil {f : PacketStreamFilter StreamBuffer} (hr : f.isReady = false) (n : ℕ) :
    (f.read n).2.bytes = [] := by
  simp [PacketStreamFilter.read, hr]

lemma read_bytes_ne_nil {f : PacketStreamFilter StreamBuffer} (hr : f.isReady = true)
    (hstored : f.buffer.stored < 2 ^ 32) {n : ℕ} (h0 : n ≠ 0) : (f.read n).2.bytes ≠ [] := by
  rw [← framer_isReady] at hr
  have hne := Framer.packet_ne_nil hr
  have hgives : Framer.Gives f.framer.popPacket f.framer.packet f.framer := .inl ⟨hr, rfl, rfl⟩
  have hbytes := (hgives.read hne h0).1
  rw [framer_read hstored] at hbytes
  rw [hbytes]
  simp [h0, hne]

open ProtocolUtil

/-- A message is read from the current packet alone exactly if its format does not ask for more than
the packet has, or no complete packet is behind it. -/
theorem readf_within_packet_iff {f : PacketStreamFilter StreamBuffer} (hr : f.isReady = true)
    (hstored : f.buffer.stored < 2 ^ 32) (fmt : List Char) :
    ((readf fmt f).2.consumed <+: f.packet ∧
      ((vreadf fmt).runsOut f.packet = true → (readf fmt f).1 = .ok false)) ↔
      ((vreadf fmt).runsOut f.packet = false ∨ f.followed = false) := by
  have hgives : Framer.Gives f.framer.popPacket f.packet f.framer ∧ f.buffer.stored < 2 ^ 32 :=
    ⟨.inl ⟨(framer_isReady f).trans hr, rfl, rfl⟩, hstored⟩
  have hblocks := blocks_packet f.framer.popPacket
  cases hout : (vreadf fmt).runsOut f.packet with
  | false =>
    have hpre : (readf fmt f).2.consumed <+: f.packet :=
      Reader.run_within hblocks ReadError.endOfStream (vreadf fmt) hgives hout
    simpa using hpre
  | true =>
    obtain ⟨hnone, hsome⟩ := Reader.run_out hblocks ReadError.endOfStream (vreadf fmt) hgives hout
    cases hf : f.followed with
    | false =>
      have hend : ∀ t : PacketStreamFilter StreamBuffer,
          t.framer = f.framer.popPacket ∧ t.buffer.stored < 2 ^ 32 → ∀ n, (ByteSource.read t n).1 = [] := by
        rintro t ⟨ht, -⟩ n
        refine read_bytes_eq_nil ?_ n
        rw [← framer_isReady, ht, ← followed_eq, hf]
      obtain ⟨hconsumed, hresult⟩ := hnone hend
      refine iff_of_true ⟨?_, fun _ => ?_⟩ (.inr rfl)
      · exact hconsumed ▸ List.prefix_refl _
      · simp only [readf, hresult]
        rfl
    | true =>
      have hmore : ∀ t : PacketStreamFilter StreamBuffer,
          t.framer = f.framer.popPacket ∧ t.buffer.stored < 2 ^ 32 → ∀ n, n ≠ 0 →
            (ByteSource.read t n).1 ≠ [] := by
        rintro t ⟨ht, hstored⟩ n h0
        refine read_bytes_ne_nil ?_ hstored h0
        rw [← framer_isReady, ht, ← followed_eq, hf]
      refine iff_of_false ?_ (by simp)
      rintro ⟨hpre, -⟩
      exact absurd hpre.length_le (Nat.not_le.mpr (hsome hmore))

theorem readf_within_packet :
    (readf "%2i".toList (afterOps [.inputReady [[0, 0, 0, 1, 7, 0, 0]]])).1 = .ok false :=
  ((readf_within_packet_iff (f := afterOps [.inputReady [[0, 0, 0, 1, 7, 0, 0]]]) (by decide)
    (by decide) "%2i".toList).mpr (.inr (by decide))).2 (by decide)

/-- An integer of two bytes, one from each packet. -/
theorem readf_beyond_packet :
    ¬ ∀ (f : PacketStreamFilter StreamBuffer) (fmt : List Char), f.isReady = true →
      (readf fmt f).2.consumed <+: f.packet ∧
        ((vreadf fmt).runsOut f.packet = true → (readf fmt f).1 = .ok false) := by
  intro h
  have hpre := (h (afterOps [.inputReady [[0, 0, 0, 1, 7, 0, 0, 0, 1, 8]]]) "%2i".toList (by decide)).1
  revert hpre
  decide

end PacketStreamFilter

end InputLeap.Protocol
