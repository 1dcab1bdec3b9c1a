import InputLeap.Protocol.Framing
import InputLeap.Protocol.Hello

/-! A filter as the list of the packets that are complete, which is all that a reader of messages
sees of it. -/

namespace InputLeap.Protocol

open InputLeap.Lib InputLeap.Lib.ByteQueue InputLeap.Io

/-- A stream that messages are read from. -/
class MessageStream (σ : Type) extends ByteSource σ where
  isReady : σ → Bool

instance {β : Type} [ByteQueue β] : MessageStream (PacketStreamFilter β) where
  isReady f := f.isReady

instance : MessageStream Pieces where
  isReady s := !s.pieces.isEmpty

structure Indistinct {σ τ : Type} [MessageStream σ] [MessageStream τ] (R : σ → τ → Prop) : Prop where
  alike : Reader.Alike R
  isReady : ∀ s t, R s t → MessageStream.isReady s = MessageStream.isReady t

namespace Framer

/-- The complete packets of a filter, the rest of the current one first. Behind them it is `last`. -/
inductive Queued (last : Framer) : Framer → List (List UInt8) → Prop
  | nil (hr : last.isReady = false) : Queued last last []
  | cons {f : Framer} {ps : List (List UInt8)} (hr : f.isReady = true) (h : Queued last f.popPacket ps) :
      Queued last f (f.packet :: ps)

variable {last f : Framer} {ps : List (List UInt8)}

lemma Queued.isReady_eq (h : Queued last f ps) : f.isReady = !ps.isEmpty := by
  cases h with
  | nil hr => exact hr
  | cons hr => exact hr

lemma Queued.read (h : Queued last f ps) (n : ℕ) :
    (f.read n).2.bytes = (Pieces.read ⟨ps⟩ n).1 ∧ Queued last (f.read n).1 (Pieces.read ⟨ps⟩ n).2.pieces := by
  cases h with
  | nil hr =>
    rw [read_none (.inr hr)]
    exact ⟨rfl, .nil hr⟩
  | @cons _ ps hr h =>
    by_cases h0 : n = 0
    · subst h0
      have hpos := List.length_pos_iff.mpr (packet_ne_nil hr)
      rw [read_none (.inl rfl)]
      simp only [Pieces.read, List.take_zero, if_pos hpos, List.drop_zero]
      exact ⟨trivial, .cons hr h⟩
    · have hgives : Gives f.popPacket f.packet f := .inl ⟨hr, rfl, rfl⟩
      obtain ⟨hbytes, hnext⟩ := hgives.read (packet_ne_nil hr) h0
      refine ⟨hbytes, ?_⟩
      rw [Pieces.read]
      split_ifs with hlt
      · rcases hnext with ⟨hr', hpacket, hpop⟩ | ⟨hnil, -⟩
        · rw [← hpacket]
          exact .cons hr' (hpop ▸ h)
        · rw [List.drop_eq_nil_iff] at hnil
          omega
      · rcases hnext with ⟨hr', hpacket, -⟩ | ⟨-, heq⟩
        · rw [List.drop_of_length_le (Nat.not_lt.mp hlt)] at hpacket
          exact absurd hpacket (packet_ne_nil hr')
        · rw [heq]
          exact h

end Framer

namespace PacketStreamFilter

def Holds (last : Framer) (f : PacketStreamFilter StreamBuffer) (s : Pieces) : Prop :=
  Framer.Queued last f.framer s.pieces ∧ f.buffer.stored < 2 ^ 32

lemma holds_indistinct (last : Framer) : Indistinct (Holds last) where
  alike f s := by
    rintro ⟨h, hstored⟩ n
    obtain ⟨hbytes, hnext⟩ := Framer.Queued.read h n
    rw [framer_read hstored] at hbytes hnext
    exact ⟨hbytes, hnext, (read_stored f n).trans_lt hstored⟩
  isReady f s h := (framer_isReady f).symm.trans (Framer.Queued.isReady_eq h.1)

end PacketStreamFilter

namespace Framer

variable {payloads : List (List UInt8)} {arrived : List UInt8} {done : List (List UInt8)} {f : Framer}

lemma Framed.queued (hpayloads : ∀ p ∈ payloads, p ≠ [] ∧ p.length ≤ maxMessageLength)
    (h : Framed payloads arrived f ⟨done, []⟩) (hpre : arrived <+: wire payloads)
    (hlt : f.buffer.bytes.length < 2 ^ 32) :
    ∃ last ps, Queued last f ps ∧ Framed payloads arrived last ⟨done ++ ps, []⟩ := by
  induction hlength : f.buffer.bytes.length using Nat.strong_induction_on generalizing f done with
  | _ n ih =>
    cases hr : f.isReady with
    | false =>
      refine ⟨f, [], .nil hr, ?_⟩
      rwa [List.append_nil]
    | true =>
      have hless := popPacket_length_lt hr
      have hnext : Framed payloads arrived f.popPacket ⟨done ++ [f.packet], []⟩ := by
        simpa [popPacket, packet, Received.add] using h.read_end hpayloads hpre hlt hr
      obtain ⟨last, ps, hps, hlast⟩ := ih _ (hlength ▸ hless) hnext (hless.trans hlt) rfl
      rw [List.append_assoc] at hlast
      exact ⟨last, f.packet :: ps, .cons hr hps, hlast⟩

end Framer

end InputLeap.Protocol
