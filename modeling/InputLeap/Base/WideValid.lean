import InputLeap.Base.Utf8

/-! What the conversions of wide strings to UTF-8 write. Surrogates and values outside the range are replaced, but the
two noncharacters at the end of the first plane are encoded, and the validator refuses them. -/

namespace InputLeap.Unicode

open InputLeap.Lib

section Parts

variable {big : Bool} {c : ℕ} {rest : Bytes} {part : Bytes × Bool} {parts : List (Bytes × Bool)} {words : List ℕ}

def IsPart (part : Bytes × Bool) : Prop := ∃ c < 2 ^ 31, part.1 = encode c

lemma chars_encode_append (h : c < 2 ^ 31) (rest : Bytes) :
    chars (encode c ++ rest) = (if IsExcluded c then s_invalid else c) :: chars rest := by
  obtain ⟨k, htails⟩ := exists_hasTails h
  have hlength : (encode c ++ rest).length = k + rest.length + 1 := by
    rw [encode_eq htails, List.length_append, List.length_cons, digits64_length]
    ring
  have hne : encode c ++ rest ≠ [] := List.ne_nil_of_length_pos (by omega)
  rw [chars, hlength, repeatNext_cons hne, fromUTF8_encode h, chars,
    utf8Code.repeatNext_fuel (show rest.length ≤ k + rest.length by omega) (Nat.le_refl rest.length)]

lemma isUTF8_encode_append (h : c < 2 ^ 31) (rest : Bytes) :
    isUTF8 (encode c ++ rest) = true ↔ ¬ IsExcluded c ∧ isUTF8 rest = true := by
  rw [isUTF8_iff_chars, isUTF8_iff_chars, chars_encode_append h, List.forall_mem_cons]
  apply and_congr_left
  intro _
  split_ifs with hexcluded
  · simp [hexcluded, not_isCharacter_invalid]
  · simp only [hexcluded, not_false_eq_true, iff_true]
    exact ⟨h, hexcluded⟩

lemma isUTF8_encode (h : c < 2 ^ 31) : isUTF8 (encode c) = true ↔ ¬ IsExcluded c := by
  have hempty : isUTF8 [] = true := rfl
  rw [← List.append_nil (encode c), isUTF8_encode_append h, and_iff_left hempty]

lemma isUTF8_joined (h : ∀ part ∈ parts, IsPart part) :
    isUTF8 (joined parts).1 = true ↔ ∀ part ∈ parts, isUTF8 part.1 = true := by
  rw [joined]
  induction parts with
  | nil => simp [isUTF8, isUTF8From]
  | cons part parts ih =>
    obtain ⟨c, hc, hpart⟩ := h part List.mem_cons_self
    rw [List.flatMap_cons, List.forall_mem_cons, hpart, isUTF8_encode_append hc, isUTF8_encode hc,
      ← ih fun p hp => h p (List.mem_cons_of_mem part hp)]

lemma toUTF8_bytes (c : ℕ) :
    (toUTF8 c).1 = encode (if (0x0000d800 ≤ c ∧ c ≤ 0x0000dfff) ∨ c ≥ 0x80000000 then s_replacement else c) := by
  rw [toUTF8]
  split_ifs <;> rfl

lemma isPart_toUTF8 (c : ℕ) : IsPart (toUTF8 c) := by
  refine ⟨_, ?_, toUTF8_bytes c⟩
  split_ifs with h
  · decide
  · omega

lemma isUTF8_toUTF8 (c : ℕ) : isUTF8 (toUTF8 c).1 = true ↔ c ≠ 0xfffe ∧ c ≠ 0xffff := by
  rw [toUTF8_bytes]
  split_ifs with h
  · rw [isUTF8_encode (by decide)]
    refine iff_of_true (by decide) ?_
    omega
  · rw [isUTF8_encode (by omega), IsExcluded]
    omega

lemma isPart_unpaired : IsPart unpaired := ⟨s_replacement, by decide, rfl⟩

lemma isUTF8_unpaired : isUTF8 unpaired.1 = true := (isUTF8_toUTF8 s_replacement).mpr (by decide)

end Parts

section Conversions

variable {words : List ℕ}

/-- Neither noncharacter is among the words, except as the second of a pair, which is replaced. -/
def CleanUTF16 : List ℕ → Prop
  | [] => True
  | [c] => c ≠ 0xfffe ∧ c ≠ 0xffff
  | c :: c2 :: words =>
    if 0xd800 ≤ c ∧ c ≤ 0xdbff then CleanUTF16 words else (c ≠ 0xfffe ∧ c ≠ 0xffff) ∧ CleanUTF16 (c2 :: words)

lemma isPart_convertUTF16 (words : List ℕ) : ∀ part ∈ convertUTF16 words, IsPart part := by
  fun_induction convertUTF16 words with
  | case1 => simp
  | case2 c h => simpa using isPart_toUTF8 c
  | case3 c h => simpa using isPart_unpaired
  | case4 c c2 words h ih => exact List.forall_mem_cons.mpr ⟨isPart_toUTF8 c, ih⟩
  | case5 c c2 words h hhigh ih =>
    refine List.forall_mem_cons.mpr ⟨?_, ih⟩
    split_ifs
    · exact isPart_unpaired
    · exact isPart_toUTF8 _
  | case6 c c2 words h hhigh ih => exact List.forall_mem_cons.mpr ⟨isPart_unpaired, ih⟩

lemma isUTF8_convertUTF16 (words : List ℕ) :
    (∀ part ∈ convertUTF16 words, isUTF8 part.1 = true) ↔ CleanUTF16 words := by
  fun_induction convertUTF16 words with
  | case1 => simp [CleanUTF16]
  | case2 c h => simp [CleanUTF16, isUTF8_toUTF8]
  | case3 c h =>
    rw [List.forall_mem_singleton, CleanUTF16]
    exact iff_of_true isUTF8_unpaired (by omega)
  | case4 c c2 words h ih => rw [List.forall_mem_cons, ih, CleanUTF16, if_neg (by omega), isUTF8_toUTF8]
  | case5 c c2 words h hhigh ih =>
    rw [List.forall_mem_cons, ih, CleanUTF16, if_pos hhigh, and_iff_right]
    split_ifs
    · exact isUTF8_unpaired
    · rw [isUTF8_toUTF8]
      omega
  | case6 c c2 words h hhigh ih =>
    rw [List.forall_mem_cons, ih, CleanUTF16, if_neg hhigh, and_iff_right isUTF8_unpaired, and_iff_right]
    omega

lemma isUTF8_map_toUTF8 (words : List ℕ) :
    isUTF8 (joined (words.map toUTF8)).1 = true ↔ ∀ c ∈ words, c ≠ 0xfffe ∧ c ≠ 0xffff := by
  rw [isUTF8_joined]
  · simp only [List.forall_mem_map, isUTF8_toUTF8]
  · intro part hpart
    obtain ⟨c, -, rfl⟩ := List.mem_map.mp hpart
    exact isPart_toUTF8 c

end Conversions

/-- The conversions write valid UTF-8 as long as there is no noncharacter for them to encode. -/
theorem isUTF8_converted_iff (big : Bool) (w : Bytes) :
    (isUTF8 (ucs2ToUTF8 big w).1 = true ↔ ∀ c ∈ wordsOf big 2 w, c ≠ 0xfffe ∧ c ≠ 0xffff) ∧
      (isUTF8 (utf16ToUTF8 big w).1 = true ↔ CleanUTF16 (wordsOf big 2 w)) ∧
      (isUTF8 (ucs4ToUTF8 big w).1 = true ↔ ∀ c ∈ wordsOf big 4 w, c ≠ 0xfffe ∧ c ≠ 0xffff) ∧
      (isUTF8 (utf32ToUTF8 big w).1 = true ↔ ∀ c ∈ wordsOf big 4 w, c ≠ 0xfffe ∧ c ≠ 0xffff) := by
  refine ⟨isUTF8_map_toUTF8 _, ?_, isUTF8_map_toUTF8 _, ?_⟩
  · rw [utf16ToUTF8, isUTF8_joined (isPart_convertUTF16 _), isUTF8_convertUTF16]
  · rw [utf32ToUTF8, isUTF8_joined, List.forall_mem_map]
    · apply forall₂_congr
      intro c _
      split_ifs with hlarge
      · exact iff_of_true isUTF8_unpaired (by omega)
      · exact isUTF8_toUTF8 c
    · intro part hpart
      obtain ⟨c, -, rfl⟩ := List.mem_map.mp hpart
      split_ifs
      · exact isPart_unpaired
      · exact isPart_toUTF8 c

/-- One word of a noncharacter. -/
theorem noncharacter_refused :
    isUTF8 (ucs2ToUTF8 false [0xff, 0xff]).1 = false ∧ isUTF8 (ucs2ToUTF8 true [0xff, 0xff]).1 = false :=
  ⟨rfl, rfl⟩

end InputLeap.Unicode
