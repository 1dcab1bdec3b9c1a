import Mathlib.Data.List.Basic

/-! First-in first-out stores of bytes, the maps between them that keep every operation, and the
plainest such store: a list of bytes whose number is counted modulo `m`. -/

namespace InputLeap.Lib

class ByteQueue (β : Type) where
  empty : β
  getSize : β → ℕ
  peek : β → ℕ → List UInt8 × β
  pop : β → ℕ → β
  write : β → List UInt8 → β

namespace ByteQueue

/-- `f` shows a store of one kind as one of another kind with the same behaviour. Bytes may be discarded while what is
held comes to less than `m`. -/
structure Hom {β γ : Type} [ByteQueue β] [ByteQueue γ] (held : β → ℕ) (m : ℕ) (f : β → γ) : Prop where
  empty : f empty = ByteQueue.empty
  getSize (b : β) : ByteQueue.getSize (f b) = ByteQueue.getSize b
  peek_fst (b : β) {n : ℕ} (h : n ≤ ByteQueue.getSize b) :
    (ByteQueue.peek (f b) n).1 = (ByteQueue.peek b n).1
  peek_snd (b : β) (n : ℕ) : f (ByteQueue.peek b n).2 = (ByteQueue.peek (f b) n).2
  pop {b : β} (h : held b < m) (n : ℕ) : f (ByteQueue.pop b n) = ByteQueue.pop (f b) n
  write (b : β) (data : List UInt8) : f (ByteQueue.write b data) = ByteQueue.write (f b) data
  held_peek (b : β) (n : ℕ) : held (ByteQueue.peek b n).2 = held b
  held_pop (b : β) (n : ℕ) : held (ByteQueue.pop b n) ≤ held b
  held_write (b : β) (data : List UInt8) : held (ByteQueue.write b data) = held b + data.length

/-- Bytes counted modulo `m`. Popping as many as are counted, or more, discards all of them. -/
@[ext]
structure Counted (m : ℕ) where
  bytes : List UInt8
  deriving DecidableEq

namespace Counted

variable {m : ℕ}

instance : ByteQueue (Counted m) where
  empty := ⟨[]⟩
  getSize b := b.bytes.length % m
  peek b n := (b.bytes.take n, b)
  pop b n := if b.bytes.length % m ≤ n then ⟨[]⟩ else ⟨b.bytes.drop n⟩
  write b data := ⟨b.bytes ++ data⟩

@[simp] lemma getSize_def (b : Counted m) : getSize b = b.bytes.length % m := rfl

@[simp] lemma peek_def (b : Counted m) (n : ℕ) : peek b n = (b.bytes.take n, b) := rfl

@[simp] lemma write_bytes (b : Counted m) (data : List UInt8) : (write b data).bytes = b.bytes ++ data := rfl

lemma pop_def (b : Counted m) (n : ℕ) :
    pop b n = if b.bytes.length % m ≤ n then ⟨[]⟩ else ⟨b.bytes.drop n⟩ := rfl

lemma pop_bytes {b : Counted m} (h : b.bytes.length < m) (n : ℕ) :
    (pop b n).bytes = b.bytes.drop n := by
  rw [pop_def, Nat.mod_eq_of_lt h]
  split_ifs with hn
  · exact (List.drop_eq_nil_of_le hn).symm
  · rfl

end Counted

end ByteQueue

end InputLeap.Lib
