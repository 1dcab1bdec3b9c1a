import InputLeap.Protocol.Oversize
import InputLeap.Protocol.Writef

/-! The reply to the hello, as it is read from the packets that have arrived. -/

namespace InputLeap.Protocol

open InputLeap.Lib InputLeap.Lib.ByteQueue InputLeap.Io

def kMsgHelloBack : List Char := "Barrier%2i%2i%s".toList
def kMsgQInfo : List Char := "QINF".toList
def kMsgEIncompatible : List Char := "EICV%2i%2i".toList
def kMsgEBad : List Char := "EBAD".toList

def kMaxHelloLength : ℕ := 1024

namespace Framer

open PacketStreamFilter hiding read write

inductive Available : Framer → List UInt8 → Prop
  | none {f : Framer} (hr : f.isReady = false) : Available f []
  | packet {f : Framer} {rest : List UInt8} (hr : f.isReady = true) (h : Available f.popPacket rest) :
      Available f (f.packet ++ rest)

lemma popPacket_length_lt {f : Framer} (hr : f.isReady = true) :
    f.popPacket.buffer.bytes.length < f.buffer.bytes.length := by
  obtain ⟨hs, hle⟩ := isReady_iff.mp hr
  have hpop : (pop f.buffer f.size).bytes.length < f.buffer.bytes.length := by
    have hmod := Nat.mod_le f.buffer.bytes.length (2 ^ 32)
    rw [Counted.pop_def]
    split_ifs
    · rw [List.length_nil]
      omega
    · rw [List.length_drop]
      omega
  exact (readPacketSize_length_le _).trans_lt hpop

lemma exists_available (f : Framer) : ∃ bytes, Available f bytes := by
  induction hlength : f.buffer.bytes.length using Nat.strong_induction_on generalizing f with
  | _ n ih =>
    cases hr : f.isReady with
    | false => exact ⟨[], .none hr⟩
    | true =>
      obtain ⟨rest, hrest⟩ := ih _ (hlength ▸ popPacket_length_lt hr) f.popPacket rfl
      exact ⟨_, .packet hr hrest⟩

lemma Available.unique {f : Framer} {bytes bytes' : List UInt8} (h : Available f bytes) (h' : Available f bytes') :
    bytes = bytes' := by
  induction h generalizing bytes' with
  | none hr =>
    cases h' with
    | none => rfl
    | packet hr' => exact absurd (hr.symm.trans hr') Bool.false_ne_true
  | packet hr _ ih =>
    cases h' with
    | none hr' => exact absurd (hr'.symm.trans hr) Bool.false_ne_true
    | packet _ h' => rw [ih h']

end Framer

namespace PacketStreamFilter

open ProtocolUtil

abbrev Available (f : PacketStreamFilter StreamBuffer) (bytes : List UInt8) : Prop := f.framer.Available bytes

def Leaves (bytes : List UInt8) (f : PacketStreamFilter StreamBuffer) : Prop :=
  f.buffer.stored < 2 ^ 32 ∧
    ∃ last block rest, Framer.Gives last block f.framer ∧ Framer.Available last rest ∧ bytes = block ++ rest

lemma Available.leaves {f : PacketStreamFilter StreamBuffer} {bytes : List UInt8} (h : f.Available bytes)
    (hstored : f.buffer.stored < 2 ^ 32) : Leaves bytes f :=
  ⟨hstored, f.framer, [], bytes, .inr ⟨rfl, rfl⟩, h, rfl⟩

lemma gives_nil {f : PacketStreamFilter StreamBuffer} {last : Framer} (h : Framer.Gives last [] f.framer) :
    f.framer = last := by
  rcases h with ⟨hr, hp, -⟩ | ⟨-, h⟩
  · exact absurd hp (Framer.packet_ne_nil hr)
  · exact h

lemma leaves_delivers : Reader.Delivers Leaves where
  read {bytes f n} := by
    rintro ⟨hstored, last, block, rest, hgives, havailable, rfl⟩ hne h0
    -- a packet that has been read up is followed by the next one
    have hblock : ∀ (last : Framer) (block rest : List UInt8), Framer.Gives last block f.framer →
        Framer.Available last rest → block ≠ [] → ∃ k, k ≠ 0 ∧ k ≤ n ∧
          (f.read n).2.bytes = (block ++ rest).take k ∧ Leaves ((block ++ rest).drop k) (f.read n).1 := by
      intro last block rest hgives havailable hne
      obtain ⟨hbytes, hnext⟩ := hgives.read hne h0
      rw [framer_read hstored] at hbytes hnext
      have hpos := List.length_pos_iff.mpr hne
      refine ⟨min n block.length, by omega, Nat.min_le_left _ _, ?_, (read_stored f n).trans_lt hstored, last,
        block.drop n, rest, hnext, havailable, ?_⟩
      · rw [List.take_append_of_le_length (Nat.min_le_right _ _), ← List.take_eq_take_min]
        exact hbytes
      · rw [List.drop_append_of_le_length (Nat.min_le_right _ _), ← List.drop_eq_drop_min]
    by_cases hnil : block = []
    · subst hnil
      obtain rfl : f.framer = last := gives_nil hgives
      cases havailable with
      | none => exact absurd rfl hne
      | packet hr havailable =>
        exact hblock _ f.framer.packet _ (.inl ⟨hr, rfl, rfl⟩) havailable (Framer.packet_ne_nil hr)
    · exact hblock _ _ _ hgives havailable hnil

lemma leaves_nil (f : PacketStreamFilter StreamBuffer) (n : ℕ) (h : Leaves [] f) :
    (ByteSource.read f n).1 = [] := by
  obtain ⟨-, last, block, rest, hgives, havailable, heq⟩ := h
  obtain ⟨rfl, rfl⟩ := List.append_eq_nil_iff.mp heq.symm
  obtain rfl : f.framer = last := gives_nil hgives
  cases hr : f.framer.isReady with
  | false => exact read_bytes_eq_nil ((framer_isReady f).symm.trans hr) n
  | true =>
    generalize hnil : ([] : List UInt8) = bytes at havailable
    cases havailable with
    | none hr' => exact absurd (hr'.symm.trans hr) Bool.false_ne_true
    | packet => exact absurd (List.append_eq_nil_iff.mp hnil.symm).1 (Framer.packet_ne_nil hr)

lemma readf_available (fmt : List Char) {f : PacketStreamFilter StreamBuffer} {bytes : List UInt8}
    (h : f.Available bytes) (hstored : f.buffer.stored < 2 ^ 32) :
    (∀ stored, (vreadf fmt).parse bytes = some stored → (readf fmt f).1 = .ok true ∧ (readf fmt f).2.stored = stored) ∧
      ((vreadf fmt).parse bytes = none → (readf fmt f).1 ≠ .ok true) := by
  obtain ⟨hsome, hnone⟩ := Reader.run_parse leaves_delivers leaves_nil ReadError.endOfStream (vreadf fmt)
    (h.leaves hstored)
  rw [readf]
  dsimp only
  constructor
  · intro stored hstored
    obtain ⟨hresult, heq⟩ := hsome stored hstored
    rw [hresult]
    exact ⟨rfl, heq⟩
  · intro hparse
    obtain ⟨e, hresult⟩ := hnone hparse
    rw [hresult, readfResult]
    split_ifs <;> simp

end PacketStreamFilter

namespace ProtocolUtil

variable {next : Program} {bytes : List UInt8} {stored : List Stored}

lemma parse_literal {c : Char} (h : (readDirective next (.literal c)).parse bytes = some stored) :
    ∃ rest, next.parse rest = some stored := by
  rw [readDirective, Reader.parse] at h
  split_ifs at h
  · exact ⟨_, h⟩
  · exact absurd h.symm (Option.some_ne_none _)

lemma parse_int {len : ℕ} (h : (readDirective next (.int len)).parse bytes = some stored) :
    ∃ value rest more, next.parse rest = some more ∧ stored = .int value :: more := by
  rw [readDirective, Reader.parse] at h
  split_ifs at h
  obtain ⟨more, hmore, rfl⟩ := Option.map_eq_some_iff.mp h
  exact ⟨_, _, more, hmore, rfl⟩

lemma parse_string (h : (readDirective next .string).parse bytes = some stored) :
    ∃ value rest more, next.parse rest = some more ∧ stored = .string value :: more := by
  rw [readDirective, Reader.parse] at h
  split_ifs at h
  dsimp only at h
  split_ifs at h
  · exact absurd h.symm (Option.some_ne_none _)
  · rw [Reader.parse] at h
    split_ifs at h
    obtain ⟨more, hmore, rfl⟩ := Option.map_eq_some_iff.mp h
    exact ⟨_, _, more, hmore, rfl⟩

lemma parse_hello (h : (vreadf kMsgHelloBack).parse bytes = some stored) :
    ∃ major minor name, stored = [.int major, .int minor, .string name] := by
  have hscan : scan none kMsgHelloBack = "Barrier".toList.map .literal ++ [.int 2, .int 2, .string] := by decide
  rw [vreadf, hscan, List.foldr_append] at h
  obtain ⟨rest, hrest⟩ : ∃ rest, ([Directive.int 2, .int 2, .string].foldr
      (fun d next => readDirective next d) .done : Program).parse rest = some stored := by
    generalize "Barrier".toList = literals at h
    induction literals generalizing bytes with
    | nil => exact ⟨bytes, h⟩
    | cons c cs ih =>
      obtain ⟨rest, hrest⟩ := parse_literal h
      exact ih hrest
  obtain ⟨major, _, _, hmajor, rfl⟩ := parse_int hrest
  obtain ⟨minor, _, _, hminor, rfl⟩ := parse_int hmajor
  obtain ⟨name, _, _, hname, rfl⟩ := parse_string hminor
  obtain rfl := Option.some.inj hname
  exact ⟨major, minor, name, rfl⟩

end ProtocolUtil

end InputLeap.Protocol
