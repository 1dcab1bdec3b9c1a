import Mathlib.Data.List.Basic
import Mathlib.Order.Nat

/-! Programs that read bytes from a source which may give fewer than it is asked for, and how such a
program fares on a source that first gives out the bytes of one block. -/

namespace InputLeap.Lib

class ByteSource (σ : Type) where
  read : σ → ℕ → List UInt8 × σ

inductive Reader (ε ω : Type)
  | done
  | throw (e : ε)
  | store (value : ω) (next : Reader ε ω)
  | read (count : ℕ) (next : List UInt8 → Reader ε ω)

structure Reader.Outcome (ε ω σ : Type) where
  result : Except ε Unit
  stored : List ω
  consumed : List UInt8
  source : σ

namespace Reader

variable {ε ω σ : Type} [ByteSource σ]

/-- Read until `count` bytes have been read or the source gives none. Every pass reads a byte, so
`count` passes are enough. -/
def fetch : ℕ → σ → ℕ → List UInt8 × σ
  | 0, s, _ => ([], s)
  | passes + 1, s, count =>
    if count = 0 then ([], s)
    else
      let (bytes, s) := ByteSource.read s count
      if bytes = [] then ([], s)
      else
        let (more, s) := fetch passes s (count - bytes.length)
        (bytes ++ more, s)

def run (eos : ε) : Reader ε ω → σ → Outcome ε ω σ
  | done, s => ⟨.ok (), [], [], s⟩
  | throw e, s => ⟨.error e, [], [], s⟩
  | store value next, s =>
    let o := next.run eos s
    { o with stored := value :: o.stored }
  | read count next, s =>
    let (bytes, s) := fetch count s count
    if bytes.length < count then ⟨.error eos, [], bytes, s⟩
    else
      let o := (next bytes).run eos s
      { o with consumed := bytes ++ o.consumed }

def runsOut : Reader ε ω → List UInt8 → Bool
  | done, _ => false
  | throw _, _ => false
  | store _ next, block => next.runsOut block
  | read count next, block =>
    if block.length < count then true else (next (block.take count)).runsOut (block.drop count)

/-- A source in `S block` gives out the bytes of `block`, as many as it is asked for, and is then
in `Last`. -/
structure Blocks (S : List UInt8 → σ → Prop) (Last : σ → Prop) : Prop where
  nil {s : σ} : S [] s → Last s
  read {block : List UInt8} {s : σ} {n : ℕ} : S block s → block ≠ [] → n ≠ 0 →
    (ByteSource.read s n).1 = block.take n ∧ S (block.drop n) (ByteSource.read s n).2

/-- A source in `S bytes` has `bytes` to give, in pieces of its own choice. -/
structure Delivers (S : List UInt8 → σ → Prop) : Prop where
  read {bytes : List UInt8} {s : σ} {n : ℕ} : S bytes s → bytes ≠ [] → n ≠ 0 → ∃ k, k ≠ 0 ∧ k ≤ n ∧
    (ByteSource.read s n).1 = bytes.take k ∧ S (bytes.drop k) (ByteSource.read s n).2

/-- Given `bytes`, a program stores what is in the list and goes on as the second one. -/
inductive Steps : Reader ε ω → List UInt8 → List ω → Reader ε ω → Prop
  | refl (r : Reader ε ω) : Steps r [] [] r
  | store {value : ω} {next r : Reader ε ω} {bytes : List UInt8} {stored : List ω}
      (h : Steps next bytes stored r) : Steps (.store value next) bytes (value :: stored) r
  | read {count : ℕ} {next : List UInt8 → Reader ε ω} {r : Reader ε ω} {bytes : List UInt8} {stored : List ω}
      (block : List UInt8) (hblock : block.length = count) (h : Steps (next block) bytes stored r) :
      Steps (.read count next) (block ++ bytes) stored r

namespace Steps

lemma trans {p q r : Reader ε ω} {bytes bytes' : List UInt8} {stored stored' : List ω}
    (h : Steps p bytes stored q) (h' : Steps q bytes' stored' r) : Steps p (bytes ++ bytes') (stored ++ stored') r := by
  induction h with
  | refl => exact h'
  | store _ ih => exact .store (ih h')
  | read block hblock _ ih =>
    rw [List.append_assoc]
    exact .read block hblock (ih h')

lemma stored_one (value : ω) (next : Reader ε ω) : Steps (.store value next) [] [value] next := .store (.refl next)

end Steps

lemma fetch_delivers {S : List UInt8 → σ → Prop} (hS : Delivers S) {passes count : ℕ} {bytes : List UInt8} {s : σ}
    (h : S bytes s) (hp : count ≤ passes) (hle : count ≤ bytes.length) :
    (fetch passes s count).1 = bytes.take count ∧ S (bytes.drop count) (fetch passes s count).2 := by
  induction passes generalizing s bytes count with
  | zero =>
    obtain rfl : count = 0 := by omega
    exact ⟨rfl, h⟩
  | succ passes ih =>
    rw [fetch]
    split_ifs with h0
    · simpa [h0] using h
    · have hne : bytes ≠ [] := by
        rintro rfl
        simp at hle
        omega
      obtain ⟨k, hk, hkn, hbytes, hs⟩ := hS.read h hne h0
      have hlen : (bytes.take k).length = k := by
        rw [List.length_take]
        omega
      have hnil : bytes.take k ≠ [] := by simp [hk, hne]
      obtain ⟨hrest, hs'⟩ := ih hs (by omega : count - k ≤ passes) (by rw [List.length_drop]; omega)
      simp only [hbytes, if_neg hnil, hlen, hrest]
      rw [List.drop_drop, Nat.add_sub_cancel' hkn] at hs'
      refine ⟨?_, hs'⟩
      rw [← List.take_add, Nat.add_sub_cancel' hkn]

/-- However its source cuts the bytes, a program does what its steps say and leaves the rest. -/
theorem Steps.run {S : List UInt8 → σ → Prop} (hS : Delivers S) (eos : ε) {p r : Reader ε ω} {bytes rest : List UInt8}
    {stored : List ω} (h : Steps p bytes stored r) {s : σ} (hs : S (bytes ++ rest) s) :
    ∃ t, S rest t ∧ p.run eos s =
      { r.run eos t with
        stored := stored ++ (r.run eos t).stored
        consumed := bytes ++ (r.run eos t).consumed } := by
  induction h generalizing s with
  | refl r => exact ⟨s, hs, rfl⟩
  | store _ ih =>
    obtain ⟨t, ht, hrun⟩ := ih hs
    refine ⟨t, ht, ?_⟩
    rw [Reader.run, hrun]
    rfl
  | @read count next r bytes stored block hblock _ ih =>
    rw [List.append_assoc] at hs
    obtain ⟨hfetch, hnext⟩ := fetch_delivers hS hs (le_refl count) (by rw [List.length_append]; omega)
    rw [List.take_left' hblock] at hfetch
    rw [List.drop_left' hblock] at hnext
    obtain ⟨t, ht, hrun⟩ := ih hnext
    refine ⟨t, ht, ?_⟩
    simp only [Reader.run, hfetch, hblock, lt_irrefl, if_false, hrun, List.append_assoc]

end Reader

/-- A source that gives out one piece after the other, and none of it together with the next. -/
structure Pieces where
  pieces : List (List UInt8)

namespace Pieces

def read : Pieces → ℕ → List UInt8 × Pieces
  | ⟨[]⟩, _ => ([], ⟨[]⟩)
  | ⟨piece :: pieces⟩, n => (piece.take n, if n < piece.length then ⟨piece.drop n :: pieces⟩ else ⟨pieces⟩)

instance : ByteSource Pieces := ⟨read⟩

def Holds (bytes : List UInt8) (s : Pieces) : Prop := s.pieces.flatten = bytes ∧ [] ∉ s.pieces

lemma delivers : Reader.Delivers Holds where
  read {bytes s n} := by
    rintro ⟨rfl, hne⟩ hnil h0
    obtain ⟨pieces⟩ := s
    cases pieces with
    | nil => exact absurd rfl hnil
    | cons piece pieces =>
      obtain ⟨hpiece, hpieces⟩ := not_or.mp (List.mem_cons.not.mp hne)
      have hpos := List.length_pos_iff.mpr (Ne.symm hpiece)
      refine ⟨min n piece.length, by omega, Nat.min_le_left _ _, ?_, ?_⟩
      · change piece.take n = (piece ++ pieces.flatten).take (min n piece.length)
        rw [List.take_append_of_le_length (Nat.min_le_right _ _), List.take_eq_take_min]
      · change Holds ((piece ++ pieces.flatten).drop (min n piece.length))
          (if n < piece.length then ⟨piece.drop n :: pieces⟩ else ⟨pieces⟩)
        split_ifs with hn
        · rw [min_eq_left hn.le, List.drop_append_of_le_length hn.le]
          refine ⟨rfl, ?_⟩
          intro hmem
          rcases List.mem_cons.mp hmem with hempty | hmem
          · have := congrArg List.length hempty
            rw [List.length_drop, List.length_nil] at this
            omega
          · exact hpieces hmem
        · rw [min_eq_right (not_lt.mp hn), List.drop_left]
          exact ⟨rfl, hpieces⟩

end Pieces

namespace Reader

variable {ε ω σ : Type} [ByteSource σ]

lemma fetch_ne_zero {passes count : ℕ} (s : σ) (hp : count ≤ passes) (h0 : count ≠ 0) :
    ((ByteSource.read s count).1 = [] → (fetch passes s count).1 = []) ∧
      ((ByteSource.read s count).1 ≠ [] → (fetch passes s count).1 ≠ []) := by
  cases passes with
  | zero => omega
  | succ passes =>
    rw [fetch, if_neg h0]
    refine ⟨fun hnil => ?_, fun hne => ?_⟩
    · simp [hnil]
    · simp [hne]

variable {S : List UInt8 → σ → Prop} {Last : σ → Prop} (hS : Blocks S Last)
include hS

lemma fetch_le {passes count : ℕ} {block : List UInt8} {s : σ} (h : S block s) (hp : count ≤ passes)
    (hle : count ≤ block.length) :
    (fetch passes s count).1 = block.take count ∧ S (block.drop count) (fetch passes s count).2 := by
  cases passes with
  | zero =>
    obtain rfl : count = 0 := by omega
    exact ⟨rfl, h⟩
  | succ passes =>
    rw [fetch]
    split_ifs with h0
    · simpa [h0] using h
    · have hne : block ≠ [] := by
        rintro rfl
        simp at hle
        omega
      obtain ⟨hbytes, hs⟩ := hS.read h hne h0
      have hsub : count - (block.take count).length = 0 := by
        rw [List.length_take]
        omega
      have hnil : block.take count ≠ [] := by simp [h0, hne]
      simp only [hbytes, if_neg hnil, hsub]
      cases passes <;> simpa [fetch] using hs

lemma fetch_gt {passes count : ℕ} {block : List UInt8} {s : σ} (h : S block s) (hp : count ≤ passes)
    (hlt : block.length < count) :
    ((∀ t, Last t → ∀ n, (ByteSource.read t n).1 = []) → (fetch passes s count).1 = block) ∧
      ((∀ t, Last t → ∀ n, n ≠ 0 → (ByteSource.read t n).1 ≠ []) → block.length < (fetch passes s count).1.length) := by
  have h0 : count ≠ 0 := by omega
  by_cases hne : block = []
  · subst hne
    obtain ⟨hnone, hsome⟩ := fetch_ne_zero s hp h0
    exact ⟨fun hlast => hnone (hlast s (hS.nil h) count),
      fun hlast => List.length_pos_iff.mpr (hsome (hlast s (hS.nil h) count h0))⟩
  · cases passes with
    | zero => omega
    | succ passes =>
      obtain ⟨hbytes, hs⟩ := hS.read h hne h0
      rw [List.take_of_length_le hlt.le] at hbytes
      rw [List.drop_of_length_le hlt.le] at hs
      have hpos := List.length_pos_iff.mpr hne
      have hp' : count - block.length ≤ passes := by omega
      obtain ⟨hnone, hsome⟩ := fetch_ne_zero (ByteSource.read s count).2 hp' (by omega)
      rw [fetch, if_neg h0]
      simp only [hbytes, if_neg hne, List.append_right_eq_self, List.length_append]
      refine ⟨fun hlast => hnone (hlast _ (hS.nil hs) _), fun hlast => ?_⟩
      have := List.length_pos_iff.mpr (hsome (hlast _ (hS.nil hs) _ (by omega)))
      omega

theorem run_within (eos : ε) (r : Reader ε ω) {block : List UInt8} {s : σ} (h : S block s)
    (hin : r.runsOut block = false) : (r.run eos s).consumed <+: block := by
  induction r generalizing block s with
  | done => exact List.nil_prefix
  | throw e => exact List.nil_prefix
  | store value next ih => exact ih h hin
  | read count next ih =>
    rw [runsOut] at hin
    split_ifs at hin with hlt
    obtain ⟨hbytes, hs⟩ := fetch_le hS h le_rfl (Nat.not_lt.mp hlt)
    have hlen : ¬ (block.take count).length < count := by
      rw [List.length_take]
      omega
    simp only [run, hbytes, if_neg hlen]
    conv_rhs => rw [← List.take_append_drop count block]
    exact (List.prefix_append_right_inj _).mpr (ih _ hs hin)

theorem run_out (eos : ε) (r : Reader ε ω) {block : List UInt8} {s : σ} (h : S block s)
    (hout : r.runsOut block = true) :
    ((∀ t, Last t → ∀ n, (ByteSource.read t n).1 = []) →
      (r.run eos s).consumed = block ∧ (r.run eos s).result = .error eos) ∧
    ((∀ t, Last t → ∀ n, n ≠ 0 → (ByteSource.read t n).1 ≠ []) → block.length < (r.run eos s).consumed.length) := by
  induction r generalizing block s with
  | done => simp [runsOut] at hout
  | throw e => simp [runsOut] at hout
  | store value next ih => exact ih h hout
  | read count next ih =>
    rw [runsOut] at hout
    split_ifs at hout with hlt
    · obtain ⟨hnone, hsome⟩ := fetch_gt hS h le_rfl hlt
      refine ⟨fun hlast => ?_, fun hlast => ?_⟩
      · simp [run, hnone hlast, hlt]
      · have hlong := hsome hlast
        simp only [run]
        split_ifs
        · exact hlong
        · simp only [List.length_append]
          omega
    · obtain ⟨hbytes, hs⟩ := fetch_le hS h le_rfl (Nat.not_lt.mp hlt)
      have hlen : ¬ (block.take count).length < count := by
        rw [List.length_take]
        omega
      obtain ⟨hnone, hsome⟩ := ih _ hs hout
      simp only [run, hbytes, if_neg hlen]
      refine ⟨fun hlast => ?_, fun hlast => ?_⟩
      · rw [(hnone hlast).1, List.take_append_drop]
        exact ⟨rfl, (hnone hlast).2⟩
      · have := hsome hlast
        simp only [List.length_append, List.length_take, List.length_drop] at this ⊢
        omega

end Reader

namespace Reader

variable {ε ω σ : Type} [ByteSource σ]

/-- What a program stores if there are these bytes and no more, and it gets through. -/
def parse : Reader ε ω → List UInt8 → Option (List ω)
  | done, _ => some []
  | throw _, _ => none
  | store value next, bytes => (next.parse bytes).map (value :: ·)
  | read count next, bytes =>
    if bytes.length < count then none else (next (bytes.take count)).parse (bytes.drop count)

lemma parse_append {r : Reader ε ω} {bytes : List UInt8} {stored : List ω} (h : r.parse bytes = some stored)
    (rest : List UInt8) : r.parse (bytes ++ rest) = some stored := by
  induction r generalizing bytes stored with
  | done => exact h
  | throw e => exact h
  | store value next ih =>
    obtain ⟨stored, hnext, rfl⟩ := Option.map_eq_some_iff.mp h
    exact Option.map_eq_some_iff.mpr ⟨stored, ih hnext, rfl⟩
  | read count next ih =>
    rw [parse] at h ⊢
    split_ifs at h with hlt
    have hle : count ≤ bytes.length := Nat.not_lt.mp hlt
    rw [if_neg (by rw [List.length_append]; omega), List.take_append_of_le_length hle,
      List.drop_append_of_le_length hle]
    exact ih _ h

section Delivers

variable {S : List UInt8 → σ → Prop} (hS : Delivers S) (hend : ∀ s n, S [] s → (ByteSource.read s n).1 = [])
include hS hend

lemma fetch_short {passes count : ℕ} {bytes : List UInt8} {s : σ} (h : S bytes s) (hlt : bytes.length < count) :
    (fetch passes s count).1.length < count := by
  induction passes generalizing s bytes count with
  | zero => exact Nat.zero_lt_of_lt hlt
  | succ passes ih =>
    rw [fetch, if_neg (by omega)]
    by_cases hne : bytes = []
    · subst hne
      simp only [hend s count h, if_true]
      exact hlt
    · obtain ⟨k, hk, hkn, hbytes, hs⟩ := hS.read h hne (by omega : count ≠ 0)
      have hpos := List.length_pos_iff.mpr hne
      have hlen : (bytes.take k).length = min k bytes.length := List.length_take
      have hnil : bytes.take k ≠ [] := by simp [hk, hne]
      simp only [hbytes, if_neg hnil, hlen, List.length_append]
      have hmore := ih hs (by rw [List.length_drop]; omega : (bytes.drop k).length < count - min k bytes.length)
      omega

theorem run_parse (eos : ε) (r : Reader ε ω) {bytes : List UInt8} {s : σ} (h : S bytes s) :
    (∀ stored, r.parse bytes = some stored → (r.run eos s).result = .ok () ∧ (r.run eos s).stored = stored) ∧
      (r.parse bytes = none → ∃ e, (r.run eos s).result = .error e) := by
  induction r generalizing bytes s with
  | done => exact ⟨fun _ hdone => ⟨rfl, Option.some.inj hdone⟩, fun hnone => absurd hnone (Option.some_ne_none _)⟩
  | throw e => exact ⟨fun _ hnone => absurd hnone.symm (Option.some_ne_none _), fun _ => ⟨e, rfl⟩⟩
  | store value next ih =>
    obtain ⟨hsome, hnone⟩ := ih h
    constructor
    · intro stored hstored
      obtain ⟨stored, hnext, rfl⟩ := Option.map_eq_some_iff.mp hstored
      obtain ⟨hresult, heq⟩ := hsome stored hnext
      exact ⟨hresult, congrArg (value :: ·) heq⟩
    · exact fun hnext => hnone (Option.map_eq_none_iff.mp hnext)
  | read count next ih =>
    rw [parse, run]
    by_cases hlt : bytes.length < count
    · have hshort : (fetch count s count).1.length < count := fetch_short hS hend h hlt
      simp only [if_pos hlt, if_pos hshort]
      exact ⟨fun _ hnone => absurd hnone.symm (Option.some_ne_none _), fun _ => ⟨eos, rfl⟩⟩
    · obtain ⟨hfetch, hnext⟩ := fetch_delivers hS h (le_refl count) (Nat.not_lt.mp hlt)
      have hlen : ¬ (bytes.take count).length < count := by
        rw [List.length_take]
        omega
      simp only [hfetch, if_neg hlt, if_neg hlen]
      exact ih _ hnext

end Delivers

end Reader

namespace Reader

variable {ε ω σ τ : Type} [ByteSource σ] [ByteSource τ]

def Alike (R : σ → τ → Prop) : Prop :=
  ∀ s t, R s t → ∀ n, (ByteSource.read s n).1 = (ByteSource.read t n).1 ∧
    R (ByteSource.read s n).2 (ByteSource.read t n).2

variable {R : σ → τ → Prop} (hR : Alike R)
include hR

lemma fetch_alike {s : σ} {t : τ} (h : R s t) (passes count : ℕ) :
    (fetch passes s count).1 = (fetch passes t count).1 ∧ R (fetch passes s count).2 (fetch passes t count).2 := by
  induction passes generalizing s t count with
  | zero => exact ⟨rfl, h⟩
  | succ passes ih =>
    obtain ⟨hbytes, hnext⟩ := hR s t h count
    rw [fetch, fetch]
    split_ifs with h0
    · exact ⟨rfl, h⟩
    · simp only [hbytes]
      split_ifs with hnil
      · exact ⟨rfl, hnext⟩
      · obtain ⟨hmore, hlast⟩ := ih hnext (count - (ByteSource.read t count).1.length)
        exact ⟨by rw [hmore], hlast⟩

/-- What a program does is the same on sources that give out the same bytes. -/
theorem run_alike (eos : ε) (r : Reader ε ω) {s : σ} {t : τ} (h : R s t) :
    (r.run eos s).result = (r.run eos t).result ∧ (r.run eos s).stored = (r.run eos t).stored ∧
      R (r.run eos s).source (r.run eos t).source := by
  induction r generalizing s t with
  | done => exact ⟨rfl, rfl, h⟩
  | throw e => exact ⟨rfl, rfl, h⟩
  | store value next ih =>
    obtain ⟨hresult, hstored, hsource⟩ := ih h
    exact ⟨hresult, congrArg (value :: ·) hstored, hsource⟩
  | read count next ih =>
    obtain ⟨hbytes, hnext⟩ := fetch_alike hR h count count
    simp only [run, hbytes]
    split_ifs with hlt
    · exact ⟨rfl, rfl, hnext⟩
    · exact ih _ hnext

end Reader

end InputLeap.Lib
