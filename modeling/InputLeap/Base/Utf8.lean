import InputLeap.Base.Unicode
import Mathlib.Tactic.IntervalCases
import Mathlib.Tactic.Ring

/-! The decoder of UTF-8 inverts the encoder, and takes nothing else for valid. Behind the first byte an encoding is a
number in base 64. -/

namespace InputLeap.Unicode

open InputLeap.Lib

section Base64

def IsTail (b : UInt8) : Prop := b.toNat / 64 = 2

def value64 (n : ℕ) (bytes : Bytes) : ℕ := bytes.foldl (fun n b => 64 * n + b.toNat % 64) n

def digits64 : ℕ → ℕ → Bytes
  | 0, _ => []
  | k + 1, c => UInt8.ofNat (c / 64 ^ k % 64 + 128) :: digits64 k c

variable {b : UInt8} {bytes : Bytes} {c k n : ℕ}

@[simp] lemma digits64_length (k c : ℕ) : (digits64 k c).length = k := by
  induction k with
  | zero => rfl
  | succ k ih => simp [digits64, ih]

lemma tail_toNat (n : ℕ) : (UInt8.ofNat (n % 64 + 128)).toNat = n % 64 + 128 := by
  rw [UInt8.toNat_ofNat']
  omega

lemma isTail_digits64 (h : b ∈ digits64 k c) : IsTail b := by
  induction k with
  | zero => cases h
  | succ k ih =>
    rcases List.mem_cons.mp h with rfl | h
    · rw [IsTail, tail_toNat]
      omega
    · exact ih h

lemma value64_digits64 (k c : ℕ) : value64 (c / 64 ^ k) (digits64 k c) = c := by
  induction k with
  | zero => simp [digits64, value64]
  | succ k ih =>
    have hstep : 64 * (c / 64 ^ (k + 1)) + (c / 64 ^ k % 64 + 128) % 64 = c / 64 ^ k := by
      rw [pow_succ, ← Nat.div_div_eq_div_mul]
      omega
    rw [digits64, value64, List.foldl_cons, tail_toNat, hstep]
    exact ih

lemma value64_div (n : ℕ) (bytes : Bytes) : value64 n bytes / 64 ^ bytes.length = n := by
  induction bytes generalizing n with
  | nil => simp [value64]
  | cons b bytes ih =>
    have hb : (64 * n + b.toNat % 64) / 64 = n := by omega
    rw [List.length_cons, pow_succ, ← Nat.div_div_eq_div_mul]
    calc value64 n (b :: bytes) / 64 ^ bytes.length / 64 = (64 * n + b.toNat % 64) / 64 := by
          rw [← ih (64 * n + b.toNat % 64)]
          rfl
      _ = n := hb

lemma digits64_value64 (h : ∀ b ∈ bytes, IsTail b) (n : ℕ) : digits64 bytes.length (value64 n bytes) = bytes := by
  induction bytes generalizing n with
  | nil => rfl
  | cons b bytes ih =>
    have hb : b.toNat / 64 = 2 := h b List.mem_cons_self
    have hrest := ih (fun d hd => h d (List.mem_cons_of_mem b hd)) (64 * n + b.toNat % 64)
    have hvalue : value64 n (b :: bytes) = value64 (64 * n + b.toNat % 64) bytes := rfl
    rw [List.length_cons, digits64, hvalue, value64_div, hrest]
    congr 1
    rw [← UInt8.toNat_inj, tail_toNat]
    omega

end Base64

section Sequences

/-- What is added to the first of `k + 1` bytes, and how many values it has. -/
def leadMark : ℕ → ℕ
  | 0 => 0
  | 1 => 0xc0
  | 2 => 0xe0
  | 3 => 0xf0
  | 4 => 0xf8
  | _ => 0xfc

def leadValues : ℕ → ℕ
  | 0 => 0x80
  | 1 => 0x20
  | 2 => 0x10
  | 3 => 0x08
  | 4 => 0x04
  | _ => 0x02

structure HasTails (c k : ℕ) : Prop where
  le_five : k ≤ 5
  minChar_le : s_minChar (k + 1) ≤ c
  lt : c < leadValues k * 64 ^ k

structure IsLead (b k : ℕ) : Prop where
  le_five : k ≤ 5
  mark_le : leadMark k ≤ b
  lt : b < leadMark k + leadValues k

variable {b : UInt8} {bytes rest data : Bytes} {c k n : ℕ}

lemma encodingLength_eq_some {b size : ℕ} : encodingLength b = some size ↔ ∃ k, size = k + 1 ∧ IsLead b k := by
  constructor
  · intro h
    rw [encodingLength] at h
    repeat' split at h
    all_goals cases h
    · exact ⟨0, rfl, by decide, show 0 ≤ b by omega, show b < 0x80 by omega⟩
    · exact ⟨1, rfl, by decide, show 0xc0 ≤ b by omega, show b < 0xe0 by omega⟩
    · exact ⟨2, rfl, by decide, show 0xe0 ≤ b by omega, show b < 0xf0 by omega⟩
    · exact ⟨3, rfl, by decide, show 0xf0 ≤ b by omega, show b < 0xf8 by omega⟩
    · exact ⟨4, rfl, by decide, show 0xf8 ≤ b by omega, show b < 0xfc by omega⟩
    · exact ⟨5, rfl, by decide, show 0xfc ≤ b by omega, show b < 0xfe by omega⟩
  · rintro ⟨k, rfl, hk, hmark, hlt⟩
    rw [encodingLength]
    interval_cases k
    · have h : b < 0x80 := hlt
      rw [if_pos h]
    · have h : 0xc0 ≤ b ∧ b < 0xe0 := ⟨hmark, hlt⟩
      rw [if_neg (by omega), if_neg (by omega), if_pos h.2]
    · have h : 0xe0 ≤ b ∧ b < 0xf0 := ⟨hmark, hlt⟩
      rw [if_neg (by omega), if_neg (by omega), if_neg (by omega), if_pos h.2]
    · have h : 0xf0 ≤ b ∧ b < 0xf8 := ⟨hmark, hlt⟩
      rw [if_neg (by omega), if_neg (by omega), if_neg (by omega), if_neg (by omega), if_pos h.2]
    · have h : 0xf8 ≤ b ∧ b < 0xfc := ⟨hmark, hlt⟩
      rw [if_neg (by omega), if_neg (by omega), if_neg (by omega), if_neg (by omega), if_neg (by omega), if_pos h.2]
    · have h : 0xfc ≤ b ∧ b < 0xfe := ⟨hmark, hlt⟩
      rw [if_neg (by omega), if_neg (by omega), if_neg (by omega), if_neg (by omega), if_neg (by omega),
        if_neg (by omega), if_pos h.2]

lemma shift_or (m : ℕ) {n : ℕ} (k : ℕ) (hn : n < 64) : m <<< (6 + k) ||| n <<< k = (64 * m + n) <<< k := by
  rw [Nat.shiftLeft_add, ← Nat.shiftLeft_or_distrib, ← Nat.shiftLeft_add_eq_or_of_lt (by simpa using hn)]
  simp only [Nat.shiftLeft_eq]
  ring

section Joined

variable {m n₁ n₂ n₃ n₄ n₅ : ℕ}

lemma or_tail (m : ℕ) (h₁ : n₁ < 64) : m <<< 6 ||| n₁ = 64 * m + n₁ := shift_or m 0 h₁

lemma or_tails₂ (m : ℕ) (h₁ : n₁ < 64) (h₂ : n₂ < 64) : m <<< 12 ||| n₁ <<< 6 ||| n₂ = 64 * (64 * m + n₁) + n₂ := by
  rw [show m <<< 12 ||| n₁ <<< 6 = (64 * m + n₁) <<< 6 from shift_or m 6 h₁, or_tail _ h₂]

lemma or_tails₃ (m : ℕ) (h₁ : n₁ < 64) (h₂ : n₂ < 64) (h₃ : n₃ < 64) :
    m <<< 18 ||| n₁ <<< 12 ||| n₂ <<< 6 ||| n₃ = 64 * (64 * (64 * m + n₁) + n₂) + n₃ := by
  rw [show m <<< 18 ||| n₁ <<< 12 = (64 * m + n₁) <<< 12 from shift_or m 12 h₁, or_tails₂ _ h₂ h₃]

lemma or_tails₄ (m : ℕ) (h₁ : n₁ < 64) (h₂ : n₂ < 64) (h₃ : n₃ < 64) (h₄ : n₄ < 64) :
    m <<< 24 ||| n₁ <<< 18 ||| n₂ <<< 12 ||| n₃ <<< 6 ||| n₄ =
      64 * (64 * (64 * (64 * m + n₁) + n₂) + n₃) + n₄ := by
  rw [show m <<< 24 ||| n₁ <<< 18 = (64 * m + n₁) <<< 18 from shift_or m 18 h₁, or_tails₃ _ h₂ h₃ h₄]

lemma or_tails₅ (m : ℕ) (h₁ : n₁ < 64) (h₂ : n₂ < 64) (h₃ : n₃ < 64) (h₄ : n₄ < 64) (h₅ : n₅ < 64) :
    m <<< 30 ||| n₁ <<< 24 ||| n₂ <<< 18 ||| n₃ <<< 12 ||| n₄ <<< 6 ||| n₅ =
      64 * (64 * (64 * (64 * (64 * m + n₁) + n₂) + n₃) + n₄) + n₅ := by
  rw [show m <<< 30 ||| n₁ <<< 24 = (64 * m + n₁) <<< 24 from shift_or m 24 h₁, or_tails₄ _ h₂ h₃ h₄ h₅]

end Joined

lemma and_tail (n : ℕ) : n &&& 0x3f = n % 64 := Nat.and_two_pow_sub_one_eq_mod n 6

lemma and_lead {b k w : ℕ} (hw : 2 ^ w = leadValues k) (hdvd : leadMark k % leadValues k = 0) (h : IsLead b k) :
    b &&& (2 ^ w - 1) = b - leadMark k := by
  have hmark := h.mark_le
  have hlt := h.lt
  rw [Nat.and_two_pow_sub_one_eq_mod, hw]
  obtain ⟨d, rfl⟩ := Nat.exists_eq_add_of_le hmark
  rw [Nat.add_sub_cancel_left, Nat.add_mod, hdvd, Nat.zero_add, Nat.mod_mod, Nat.mod_eq_of_lt (by omega)]

lemma extract_eq (hlead : IsLead b.toNat bytes.length) (rest : Bytes) :
    extract (b :: bytes ++ rest) (bytes.length + 1) = value64 (b.toNat - leadMark bytes.length) bytes := by
  have hmod (n : ℕ) : n % 64 < 64 := Nat.mod_lt _ (by decide)
  have hfive := hlead.le_five
  rcases bytes with _ | ⟨b₁, _ | ⟨b₂, _ | ⟨b₃, _ | ⟨b₄, _ | ⟨b₅, _ | ⟨b₆, bytes⟩⟩⟩⟩⟩⟩
  · rfl
  · have hmask : b.toNat &&& 0x1f = b.toNat - leadMark 1 := and_lead (w := 5) rfl rfl hlead
    change (b.toNat &&& 0x1f) <<< 6 ||| (b₁.toNat &&& 0x3f) = _
    rw [hmask, and_tail, or_tail _ (hmod _)]
    rfl
  · have hmask : b.toNat &&& 0x0f = b.toNat - leadMark 2 := and_lead (w := 4) rfl rfl hlead
    change (b.toNat &&& 0x0f) <<< 12 ||| (b₁.toNat &&& 0x3f) <<< 6 ||| (b₂.toNat &&& 0x3f) = _
    simp only [hmask, and_tail]
    exact or_tails₂ _ (hmod _) (hmod _)
  · have hmask : b.toNat &&& 0x07 = b.toNat - leadMark 3 := and_lead (w := 3) rfl rfl hlead
    change (b.toNat &&& 0x07) <<< 18 ||| (b₁.toNat &&& 0x3f) <<< 12 ||| (b₂.toNat &&& 0x3f) <<< 6 |||
      (b₃.toNat &&& 0x3f) = _
    simp only [hmask, and_tail]
    exact or_tails₃ _ (hmod _) (hmod _) (hmod _)
  · have hmask : b.toNat &&& 0x03 = b.toNat - leadMark 4 := and_lead (w := 2) rfl rfl hlead
    change (b.toNat &&& 0x03) <<< 24 ||| (b₁.toNat &&& 0x3f) <<< 18 ||| (b₂.toNat &&& 0x3f) <<< 12 |||
      (b₃.toNat &&& 0x3f) <<< 6 ||| (b₄.toNat &&& 0x3f) = _
    simp only [hmask, and_tail]
    exact or_tails₄ _ (hmod _) (hmod _) (hmod _) (hmod _)
  · have hmask : b.toNat &&& 0x01 = b.toNat - leadMark 5 := and_lead (w := 1) rfl rfl hlead
    change (b.toNat &&& 0x01) <<< 30 ||| (b₁.toNat &&& 0x3f) <<< 24 ||| (b₂.toNat &&& 0x3f) <<< 18 |||
      (b₃.toNat &&& 0x3f) <<< 12 ||| (b₄.toNat &&& 0x3f) <<< 6 ||| (b₅.toNat &&& 0x3f) = _
    simp only [hmask, and_tail]
    exact or_tails₅ _ (hmod _) (hmod _) (hmod _) (hmod _) (hmod _)
  · simp only [List.length_cons] at hfive
    omega

lemma and_top (b : UInt8) : b.toNat &&& 0xc0 = 0x80 ↔ IsTail b := by
  have hall : ((List.range 256).all fun n => decide (n &&& 0xc0 = 0x80) == decide (n / 64 = 2)) = true := by
    decide +kernel
  have := List.all_eq_true.mp hall b.toNat (List.mem_range.mpr b.toNat_lt)
  rwa [beq_iff_eq, decide_eq_decide] at this

lemma truncate_of_tails {i : ℕ} (h : ∀ j < i, byteAt data (j + 1) &&& 0xc0 = 0x80) (result : ℕ × Bool) :
    truncate data i result = result := by
  induction i with
  | zero => rfl
  | succ i ih =>
    rw [truncate, if_neg (by simp [h i i.lt_succ_self])]
    exact ih fun j hj => h j (by omega)

lemma tails_of_truncate {i : ℕ} {result : ℕ × Bool} (h : (truncate data i result).2 = false) :
    result.2 = false ∧ ∀ j < i, byteAt data (j + 1) &&& 0xc0 = 0x80 := by
  induction i generalizing result with
  | zero => exact ⟨h, by simp⟩
  | succ i ih =>
    rw [truncate] at h
    obtain ⟨hresult, htails⟩ := ih h
    split_ifs at hresult with hbyte
    refine ⟨hresult, fun j hj => ?_⟩
    rcases Nat.lt_succ_iff_lt_or_eq.mp hj with hj | rfl
    · exact htails j hj
    · simpa using hbyte

lemma truncate_pos {i : ℕ} {result : ℕ × Bool} (h : 0 < result.1) : 0 < (truncate data i result).1 := by
  induction i generalizing result with
  | zero => exact h
  | succ i ih =>
    rw [truncate]
    apply ih
    split_ifs
    · exact Nat.succ_pos i
    · exact h

lemma byteAt_tail {i : ℕ} (hi : i < bytes.length) (b : UInt8) (rest : Bytes) :
    byteAt (b :: bytes ++ rest) (i + 1) = bytes[i].toNat := by
  rw [byteAt, List.cons_append, List.getD_cons_succ, List.getD_append _ _ _ _ hi, List.getD_eq_getElem _ _ hi]

/-- What is taken for invalid even if its encoding is complete and as short as it can be. -/
def IsExcluded (c : ℕ) : Prop := (0x0000d800 ≤ c ∧ c ≤ 0x0000dfff) ∨ (0x0000fffe ≤ c ∧ c ≤ 0x0000ffff)

instance (c : ℕ) : Decidable (IsExcluded c) := inferInstanceAs (Decidable (_ ∨ _))

lemma fromUTF8_lead (hlead : IsLead b.toNat bytes.length) (rest : Bytes) :
    fromUTF8 (b :: bytes ++ rest) =
      if (truncate (b :: bytes ++ rest) bytes.length (bytes.length + 1, false)).2 = true then
        (s_invalid,
          (b :: bytes ++ rest).drop (truncate (b :: bytes ++ rest) bytes.length (bytes.length + 1, false)).1)
      else
        (if value64 (b.toNat - leadMark bytes.length) bytes < s_minChar (bytes.length + 1) ∨
            IsExcluded (value64 (b.toNat - leadMark bytes.length) bytes) then s_invalid
          else value64 (b.toNat - leadMark bytes.length) bytes, rest) := by
  have hlength : encodingLength (byteAt (b :: bytes ++ rest) 0) = some (bytes.length + 1) :=
    encodingLength_eq_some.mpr ⟨_, rfl, hlead⟩
  have hlong : ¬ bytes.length + 1 > (b :: bytes ++ rest).length := by simp
  rw [fromUTF8, hlength]
  dsimp only
  rw [if_neg hlong, Nat.add_sub_cancel, extract_eq hlead]
  by_cases htruncated : (truncate (b :: bytes ++ rest) bytes.length (bytes.length + 1, false)).2 = true
  · rw [if_pos htruncated, if_pos htruncated]
  · have hsize : truncate (b :: bytes ++ rest) bytes.length (bytes.length + 1, false) = (bytes.length + 1, false) :=
      truncate_of_tails (tails_of_truncate (by simpa using htruncated)).2 _
    have hdrop : (b :: bytes ++ rest).drop (bytes.length + 1) = rest := by
      rw [List.cons_append, List.drop_succ_cons, List.drop_left]
    rw [hsize, if_neg Bool.false_ne_true, if_neg Bool.false_ne_true, hdrop]
    generalize value64 (b.toNat - leadMark bytes.length) bytes = c
    by_cases hmin : c < s_minChar (bytes.length + 1)
    · rw [if_pos hmin, if_pos (.inl hmin)]
    · by_cases hexcluded : IsExcluded c
      · have hrefused : c < s_minChar (bytes.length + 1) ∨ IsExcluded c := .inr hexcluded
        simp only [if_neg hmin, if_pos hrefused]
        rcases hexcluded with h | h
        · rw [if_pos h]
        · rw [if_neg (by omega), if_pos h]
      · rw [if_neg hmin, if_neg fun h => hexcluded (.inl h), if_neg fun h => hexcluded (.inr h),
          if_neg fun h => h.elim hmin hexcluded]

lemma truncate_false_iff :
    (truncate (b :: bytes ++ rest) bytes.length (bytes.length + 1, false)).2 = false ↔ ∀ d ∈ bytes, IsTail d := by
  constructor
  · intro h d hd
    obtain ⟨j, hj, rfl⟩ := List.getElem_of_mem hd
    rw [← and_top, ← byteAt_tail hj b rest]
    exact (tails_of_truncate h).2 j hj
  · intro h
    rw [truncate_of_tails]
    intro j hj
    rw [byteAt_tail hj, and_top]
    exact h _ (List.getElem_mem hj)

lemma fromUTF8_of_tails (hlead : IsLead b.toNat bytes.length) (htails : ∀ d ∈ bytes, IsTail d) (rest : Bytes)
    (hc : value64 (b.toNat - leadMark bytes.length) bytes = c) (hmin : s_minChar (bytes.length + 1) ≤ c) :
    fromUTF8 (b :: bytes ++ rest) = (if IsExcluded c then s_invalid else c, rest) := by
  rw [fromUTF8_lead hlead, truncate_false_iff.mpr htails, if_neg Bool.false_ne_true, hc]
  simp only [hmin.not_gt, false_or]

lemma fromUTF8_ok (hdata : data ≠ []) (h : (fromUTF8 data).1 ≠ s_invalid) :
    ∃ b bytes, data = b :: bytes ++ (fromUTF8 data).2 ∧ IsLead b.toNat bytes.length ∧ (∀ d ∈ bytes, IsTail d) ∧
      value64 (b.toNat - leadMark bytes.length) bytes = (fromUTF8 data).1 ∧
      s_minChar (bytes.length + 1) ≤ (fromUTF8 data).1 := by
  obtain ⟨b, data, rfl⟩ := List.exists_cons_of_ne_nil hdata
  have hbyte : byteAt (b :: data) 0 = b.toNat := rfl
  cases hlength : encodingLength b.toNat with
  | none =>
    rw [fromUTF8, hbyte, hlength] at h
    exact absurd rfl h
  | some size =>
    obtain ⟨k, rfl, hlead⟩ := encodingLength_eq_some.mp hlength
    by_cases hlong : k + 1 > (b :: data).length
    · rw [fromUTF8, hbyte, hlength] at h
      dsimp only at h
      rw [if_pos hlong] at h
      exact absurd rfl h
    have hk : k ≤ data.length := by simpa using hlong
    -- the bytes of the sequence, and those behind it
    obtain ⟨bytes, rest, rfl, rfl⟩ : ∃ bytes rest, data = bytes ++ rest ∧ bytes.length = k :=
      ⟨data.take k, data.drop k, (List.take_append_drop k data).symm, List.length_take_of_le hk⟩
    rw [← List.cons_append, fromUTF8_lead hlead] at h ⊢
    split_ifs at h ⊢ with htruncated hrefused
    · exact absurd rfl h
    · exact absurd rfl h
    · exact ⟨b, bytes, rfl, hlead, truncate_false_iff.mp (by simpa using htruncated), rfl,
        not_lt.mp fun hmin => hrefused (.inl hmin)⟩

lemma fromUTF8_shorter (hdata : data ≠ []) : (fromUTF8 data).2.length < data.length := by
  have hpos := List.length_pos_of_ne_nil hdata
  rw [fromUTF8]
  cases hlength : encodingLength (byteAt data 0) with
  | none =>
    change data.tail.length < data.length
    rw [List.length_tail]
    omega
  | some size =>
    obtain ⟨k, rfl, -⟩ := encodingLength_eq_some.mp hlength
    have htaken : 0 < (truncate data k (k + 1, false)).1 := truncate_pos k.succ_pos
    dsimp only
    rw [Nat.add_sub_cancel]
    split_ifs
    · exact hpos
    all_goals
      rw [List.length_drop]
      omega

end Sequences

section Encodings

variable {b : UInt8} {bytes rest data : Bytes} {c k n : ℕ}

lemma exists_hasTails (h : c < 2 ^ 31) : ∃ k, HasTails c k := by
  by_cases h₀ : c < 0x80
  · exact ⟨0, by decide, Nat.zero_le c, h₀⟩
  by_cases h₁ : c < 0x800
  · exact ⟨1, by decide, not_lt.mp h₀, h₁⟩
  by_cases h₂ : c < 0x10000
  · exact ⟨2, by decide, not_lt.mp h₁, h₂⟩
  by_cases h₃ : c < 0x200000
  · exact ⟨3, by decide, not_lt.mp h₂, h₃⟩
  by_cases h₄ : c < 0x4000000
  · exact ⟨4, by decide, not_lt.mp h₃, h₄⟩
  · exact ⟨5, by decide, not_lt.mp h₄, h⟩

lemma shift_and (c k : ℕ) : c >>> (6 * k) &&& 0x3f = c / 64 ^ k % 64 := by
  rw [and_tail, Nat.shiftRight_eq_div_pow, pow_mul]
  rfl

lemma shift_lead {w : ℕ} (hw : 2 ^ w = leadValues k) (h : HasTails c k) : c >>> (6 * k) &&& (2 ^ w - 1) = c / 64 ^ k := by
  have hlt : c / 64 ^ k < leadValues k := by
    rw [Nat.div_lt_iff_lt_mul (by positivity)]
    exact h.lt
  rw [Nat.and_two_pow_sub_one_eq_mod, Nat.shiftRight_eq_div_pow, pow_mul, hw]
  exact Nat.mod_eq_of_lt hlt

lemma encode_eq (h : HasTails c k) : encode c = UInt8.ofNat (c / 64 ^ k + leadMark k) :: digits64 k c := by
  have hfive := h.le_five
  have hmin := h.minChar_le
  have hlt := h.lt
  have hlast : c &&& 0x3f = c / 64 ^ 0 % 64 := shift_and c 0
  have htail₁ : c >>> 6 &&& 0x3f = c / 64 ^ 1 % 64 := shift_and c 1
  have htail₂ : c >>> 12 &&& 0x3f = c / 64 ^ 2 % 64 := shift_and c 2
  have htail₃ : c >>> 18 &&& 0x3f = c / 64 ^ 3 % 64 := shift_and c 3
  have htail₄ : c >>> 24 &&& 0x3f = c / 64 ^ 4 % 64 := shift_and c 4
  interval_cases k
  · have hlt : c < 0x80 := hlt
    rw [encode, if_pos hlt]
    simp [digits64, leadMark]
  · have hlt : c < 0x800 := hlt
    have hmin : 0x80 ≤ c := hmin
    have hmask : c >>> 6 &&& 0x1f = c / 64 ^ 1 := shift_lead (w := 5) rfl h
    rw [encode, if_neg hmin.not_gt, if_pos hlt, hmask, hlast]
    rfl
  · have hlt : c < 0x10000 := hlt
    have hmin : 0x800 ≤ c := hmin
    have hmask : c >>> 12 &&& 0x0f = c / 64 ^ 2 := shift_lead (w := 4) rfl h
    rw [encode, if_neg (by omega), if_neg hmin.not_gt, if_pos hlt, hmask, htail₁, hlast]
    rfl
  · have hlt : c < 0x200000 := hlt
    have hmin : 0x10000 ≤ c := hmin
    have hmask : c >>> 18 &&& 0x07 = c / 64 ^ 3 := shift_lead (w := 3) rfl h
    rw [encode, if_neg (by omega), if_neg (by omega), if_neg hmin.not_gt, if_pos hlt, hmask, htail₂, htail₁, hlast]
    rfl
  · have hlt : c < 0x4000000 := hlt
    have hmin : 0x200000 ≤ c := hmin
    have hmask : c >>> 24 &&& 0x03 = c / 64 ^ 4 := shift_lead (w := 2) rfl h
    rw [encode, if_neg (by omega), if_neg (by omega), if_neg (by omega), if_neg hmin.not_gt, if_pos hlt, hmask, htail₃,
      htail₂, htail₁, hlast]
    rfl
  · have hlt : c < 0x80000000 := hlt
    have hmin : 0x4000000 ≤ c := hmin
    have hmask : c >>> 30 &&& 0x01 = c / 64 ^ 5 := shift_lead (w := 1) rfl h
    rw [encode, if_neg (by omega), if_neg (by omega), if_neg (by omega), if_neg (by omega), if_neg hmin.not_gt,
      if_pos hlt, hmask, htail₄, htail₃, htail₂, htail₁, hlast]
    rfl

lemma lead_toNat (h : HasTails c k) : (UInt8.ofNat (c / 64 ^ k + leadMark k)).toNat = c / 64 ^ k + leadMark k := by
  have hlt : c / 64 ^ k < leadValues k := by
    rw [Nat.div_lt_iff_lt_mul (by positivity)]
    exact h.lt
  have hbyte : leadValues k + leadMark k ≤ 256 := by
    have hfive := h.le_five
    interval_cases k <;> decide
  rw [UInt8.toNat_ofNat', Nat.mod_eq_of_lt (by omega)]

lemma isLead_encode (h : HasTails c k) : IsLead (c / 64 ^ k + leadMark k) k := by
  refine ⟨h.le_five, Nat.le_add_left _ _, ?_⟩
  have hlt : c / 64 ^ k < leadValues k := by
    rw [Nat.div_lt_iff_lt_mul (by positivity)]
    exact h.lt
  omega

lemma fromUTF8_encode (h : c < 2 ^ 31) (rest : Bytes) :
    fromUTF8 (encode c ++ rest) = (if IsExcluded c then s_invalid else c, rest) := by
  obtain ⟨k, htails⟩ := exists_hasTails h
  rw [encode_eq htails]
  apply fromUTF8_of_tails
  · rw [lead_toNat htails, digits64_length]
    exact isLead_encode htails
  · exact fun d hd => isTail_digits64 hd
  · rw [lead_toNat htails, digits64_length, Nat.add_sub_cancel, value64_digits64]
  · rw [digits64_length]
    exact htails.minChar_le

lemma encode_fromUTF8 (hdata : data ≠ []) (h : (fromUTF8 data).1 ≠ s_invalid) :
    (fromUTF8 data).1 < 2 ^ 31 ∧ encode (fromUTF8 data).1 ++ (fromUTF8 data).2 = data := by
  obtain ⟨b, bytes, hsplit, hlead, htails, hvalue, hmin⟩ := fromUTF8_ok hdata h
  have hquot : (fromUTF8 data).1 / 64 ^ bytes.length = b.toNat - leadMark bytes.length := by
    rw [← hvalue, value64_div]
  have hrange : HasTails (fromUTF8 data).1 bytes.length := by
    refine ⟨hlead.le_five, hmin, ?_⟩
    rw [← Nat.div_lt_iff_lt_mul (by positivity), hquot]
    have hmark := hlead.mark_le
    have hlt := hlead.lt
    omega
  have hdigits : digits64 bytes.length (fromUTF8 data).1 = bytes := by
    rw [← hvalue]
    exact digits64_value64 htails _
  constructor
  · have hfive := hlead.le_five
    have hlt := hrange.lt
    generalize bytes.length = k at hfive hlt
    interval_cases k <;> simp only [leadValues] at hlt <;> omega
  · rw [encode_eq hrange, hquot, Nat.sub_add_cancel hlead.mark_le, UInt8.ofNat_toNat, hdigits]
    exact hsplit.symm

end Encodings

structure IsCharacter (c : ℕ) : Prop where
  lt : c < 2 ^ 31
  not_excluded : ¬ IsExcluded c

lemma not_isCharacter_invalid : ¬ IsCharacter s_invalid := by
  intro h
  exact h.not_excluded (by decide)

lemma isCharacter_fromUTF8 {data : Bytes} (hdata : data ≠ []) (h : (fromUTF8 data).1 ≠ s_invalid) :
    IsCharacter (fromUTF8 data).1 := by
  obtain ⟨hlt, hencode⟩ := encode_fromUTF8 hdata h
  refine ⟨hlt, fun hexcluded => h ?_⟩
  have hread := fromUTF8_encode hlt (fromUTF8 data).2
  rw [hencode, if_pos hexcluded] at hread
  exact congrArg Prod.fst hread

lemma toUTF8_eq {c : ℕ} (h : IsCharacter c) : toUTF8 c = (encode c, false) := by
  rw [toUTF8, if_neg]
  rintro (hsurrogate | hlarge)
  · exact h.not_excluded (.inl hsurrogate)
  · exact absurd h.lt (not_lt.mpr hlarge)

lemma utf8Code : PrefixCode IsCharacter encode fromUTF8 where
  encode_ne_nil c hc := by
    obtain ⟨k, htails⟩ := exists_hasTails hc.lt
    rw [encode_eq htails]
    exact List.cons_ne_nil _ _
  next_encode c hc rest := by
    rw [fromUTF8_encode hc.lt, if_neg hc.not_excluded]
  encode_next text htext hc := by
    apply (encode_fromUTF8 htext _).2
    intro hinvalid
    exact not_isCharacter_invalid (hinvalid ▸ hc)
  next_shorter text := fromUTF8_shorter

lemma isUTF8From_iff (n : ℕ) (src : Bytes) : isUTF8From n src = true ↔ ∀ c ∈ repeatNext fromUTF8 n src, IsCharacter c := by
  induction n generalizing src with
  | zero => simp [isUTF8From, repeatNext]
  | succ n ih =>
    cases src with
    | nil => simp [isUTF8From, repeatNext]
    | cons b src =>
      rw [isUTF8From, repeatNext, List.forall_mem_cons]
      split_ifs with hinvalid
      · simp [hinvalid, not_isCharacter_invalid]
      · rw [ih, and_iff_right (isCharacter_fromUTF8 (List.cons_ne_nil b src) hinvalid)]

lemma isUTF8_iff_chars (src : Bytes) : isUTF8 src = true ↔ ∀ c ∈ chars src, IsCharacter c := isUTF8From_iff _ src

lemma chars_flatMap {cs : List ℕ} (h : ∀ c ∈ cs, IsCharacter c) : chars (cs.flatMap encode) = cs :=
  utf8Code.repeatNext_flatMap h

lemma flatMap_chars {src : Bytes} (h : isUTF8 src = true) : (chars src).flatMap encode = src :=
  utf8Code.flatMap_repeatNext (Nat.le_refl _) ((isUTF8_iff_chars src).mp h)

/-- The texts of valid UTF-8 are the encodings of characters, each of exactly one list of them. -/
theorem isUTF8_iff (s : Bytes) :
    (isUTF8 s = true ↔ ∃ cs : List ℕ, (∀ c ∈ cs, IsCharacter c) ∧ s = cs.flatMap fun c => (toUTF8 c).1) ∧
      ∀ cs : List ℕ, (∀ c ∈ cs, IsCharacter c) → (s = cs.flatMap fun c => (toUTF8 c).1) → chars s = cs := by
  have hbytes {cs : List ℕ} (h : ∀ c ∈ cs, IsCharacter c) : cs.flatMap (fun c => (toUTF8 c).1) = cs.flatMap encode := by
    apply List.flatMap_congr
    intro c hc
    rw [toUTF8_eq (h c hc)]
  constructor
  · rw [isUTF8_iff_chars, chars, utf8Code.valid_iff]
    apply exists_congr
    intro cs
    apply and_congr_right
    intro h
    rw [hbytes h]
  · intro cs h hs
    rw [hs, hbytes h, chars_flatMap h]

end InputLeap.Unicode
