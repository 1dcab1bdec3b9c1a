import InputLeap.Lib.Reader

/-! A source whose bytes arrive while it is being read, and the programs that find it empty too early. -/

namespace InputLeap.Lib

/-- The first entry of `arrivals` is what arrives before the next read. -/
structure Arriving where
  held : List UInt8
  arrivals : List (List UInt8)
  deriving DecidableEq

namespace Arriving

variable (s : Arriving)

def ready : List UInt8 := s.held ++ s.arrivals.headD []

def unread : List UInt8 := s.held ++ s.arrivals.flatten

def read (n : ℕ) : List UInt8 × Arriving := (s.ready.take n, ⟨s.ready.drop n, s.arrivals.tail⟩)

instance : ByteSource Arriving := ⟨read⟩

def awaited : Arriving := if s.held = [] then ⟨[], s.arrivals.dropWhile fun bytes => bytes.isEmpty⟩ else s

lemma unread_eq_ready : s.unread = s.ready ++ s.arrivals.tail.flatten := by
  rw [unread, ready]
  cases s.arrivals with
  | nil => simp
  | cons bytes arrivals => simp

lemma read_unread (n : ℕ) : (s.read n).1 ++ (s.read n).2.unread = s.unread := by
  rw [unread_eq_ready s, read, unread, ← List.append_assoc, List.take_append_drop]

variable {s}

lemma arrivals_read (n : ℕ) : (s.read n).2.arrivals = s.arrivals.tail := rfl

lemma held_of_ready_nil (h : s.ready = []) : s.held = [] := (List.append_eq_nil_iff.mp h).1

lemma awaited_of_ready (h : s.ready ≠ []) : s.awaited = s := by
  rw [awaited]
  split_ifs with hheld
  · obtain ⟨held, arrivals⟩ := s
    cases arrivals with
    | nil => exact absurd (by simpa [ready] using hheld) h
    | cons bytes arrivals =>
      have hbytes : bytes ≠ [] := fun hnil => h (by simp_all [ready])
      have hempty : bytes.isEmpty = false := List.isEmpty_eq_false_iff.mpr hbytes
      have hsame : held = [] := hheld
      rw [List.dropWhile_cons_of_neg (by simp [hempty]), hsame]
  · rfl

lemma awaited_read (h : s.ready = []) (n : ℕ) : (s.read n).2.awaited = s.awaited := by
  have hheld := held_of_ready_nil h
  have hhead : s.arrivals.headD [] = [] := (List.append_eq_nil_iff.mp h).2
  rw [awaited, awaited, read, if_pos hheld, if_pos (by rw [h, List.drop_nil])]
  cases harrivals : s.arrivals with
  | nil => rfl
  | cons bytes arrivals =>
    rw [harrivals] at hhead
    have hempty : bytes.isEmpty = true := List.isEmpty_iff.mpr hhead
    rw [List.dropWhile_cons_of_pos hempty, List.tail_cons]

end Arriving

namespace Reader

variable {ε ω σ : Type} [ByteSource σ]

lemma fetch_invariant {P : σ → Prop} (hread : ∀ s n, P s → P (ByteSource.read s n).2) (passes count : ℕ) {s : σ} (h : P s) :
    P (fetch passes s count).2 := by
  induction passes generalizing s count with
  | zero => exact h
  | succ passes ih =>
    rw [fetch]
    split_ifs
    · exact h
    · dsimp only
      split_ifs
      · exact hread s count h
      · exact ih _ (hread s count h)

/-- A program leaves its source as reads do. -/
theorem run_invariant {P : σ → Prop} (hread : ∀ s n, P s → P (ByteSource.read s n).2) (eos : ε) (r : Reader ε ω) {s : σ}
    (h : P s) :
    P (r.run eos s).source := by
  induction r generalizing s with
  | done => exact h
  | throw e => exact h
  | store value next ih => exact ih h
  | read count next ih =>
    rw [run]
    dsimp only
    split_ifs
    · exact fetch_invariant hread count count h
    · exact ih _ (fetch_invariant hread count count h)

/-- No byte is lost: a source has what it gives out and what it has after that. -/
structure Conserves (unread : σ → List UInt8) : Prop where
  read : ∀ (s : σ) n, (ByteSource.read s n).1 ++ unread (ByteSource.read s n).2 = unread s
  le : ∀ (s : σ) n, (ByteSource.read s n).1.length ≤ n

lemma fetch_conserves {unread : σ → List UInt8} (hC : Conserves unread) (passes count : ℕ) (s : σ) :
    (fetch passes s count).1 ++ unread (fetch passes s count).2 = unread s ∧ (fetch passes s count).1.length ≤ count := by
  induction passes generalizing s count with
  | zero => exact ⟨rfl, Nat.zero_le _⟩
  | succ passes ih =>
    rw [fetch]
    split_ifs
    · exact ⟨rfl, Nat.zero_le _⟩
    · have hread := hC.read s count
      have hle := hC.le s count
      dsimp only
      split_ifs with hnil
      · rw [hnil, List.nil_append] at hread
        exact ⟨hread, Nat.zero_le _⟩
      · obtain ⟨hmore, hlength⟩ := ih (count - (ByteSource.read s count).1.length) (ByteSource.read s count).2
        refine ⟨?_, ?_⟩
        · rw [List.append_assoc, hmore, hread]
        · rw [List.length_append]
          omega

lemma fetch_block {unread : σ → List UInt8} (hC : Conserves unread) {block rest : List UInt8} {s : σ}
    (hs : unread s = block ++ rest) (count : ℕ) (hblock : block.length = count) :
    ((fetch count s count).1 = block ∧ unread (fetch count s count).2 = rest) ∨
      ((fetch count s count).1.length < count ∧
        ∃ left, left ≠ [] ∧ left <:+ block ∧ unread (fetch count s count).2 = left ++ rest) := by
  obtain ⟨hall, hle⟩ := fetch_conserves hC count count s
  rw [hs] at hall
  rcases Nat.lt_or_eq_of_le hle with hlt | heq
  · right
    refine ⟨hlt, block.drop (fetch count s count).1.length, ?_, List.drop_suffix _ _, ?_⟩
    · intro hnil
      have hlong := List.drop_eq_nil_iff.mp hnil
      omega
    · have hdrop := congrArg (List.drop (fetch count s count).1.length) hall
      rwa [List.drop_left, List.drop_append_of_le_length (by omega)] at hdrop
  · left
    exact List.append_inj hall (by omega)

/-- The source after reads of `counts` bytes each, where none of them finds it empty too early. -/
def fed : List ℕ → σ → Option σ
  | [], s => some s
  | count :: counts, s =>
    if (fetch count s count).1.length < count then none else fed counts (fetch count s count).2

end Reader

lemma Arriving.conserves : Reader.Conserves Arriving.unread where
  read := Arriving.read_unread
  le s n := List.length_take_le n s.ready

end InputLeap.Lib
