import InputLeap.Base.Utf8
import Mathlib.Algebra.BigOperators.Group.List.Basic

/-! Texts that are converted to wide strings and back. Surrogates and marks of the byte order cancel, but the number of
words is computed in 32 bits, and of a wide string of four gigabytes or more the end is lost. -/

namespace InputLeap.Unicode

open InputLeap.Lib

section Words

variable {big : Bool} {size n c : ℕ} {ws : List ℕ} {rest : Bytes}

@[simp] lemma wordBytes_length (big : Bool) (size c : ℕ) : (wordBytes big size c).length = size := by
  rw [wordBytes]
  split_ifs <;> simp

lemma decodeWord_wordBytes (h : c < 256 ^ size) (rest : Bytes) :
    decodeWord big size (wordBytes big size c ++ rest) false = c := by
  rw [decodeWord, List.take_left' (wordBytes_length big size c), wordBytes]
  cases big
  · simp [h]
  · simp [h]

lemma wordBytes_flatMap_length (ws : List ℕ) : (ws.flatMap (wordBytes big size)).length = size * ws.length := by
  induction ws with
  | nil => rfl
  | cons w ws ih =>
    rw [List.flatMap_cons, List.length_append, wordBytes_length, ih, List.length_cons]
    ring

lemma decodeWords_flatMap (h : ∀ w ∈ ws, w < 256 ^ size) (hn : n ≤ ws.length) :
    decodeWords big size false n (ws.flatMap (wordBytes big size)) = ws.take n := by
  induction n generalizing ws with
  | zero => rfl
  | succ n ih =>
    obtain ⟨w, ws, rfl⟩ := List.exists_cons_of_length_pos (show 0 < ws.length by omega)
    rw [List.flatMap_cons, decodeWords, decodeWord_wordBytes (h w List.mem_cons_self),
      List.drop_left' (wordBytes_length big size w), ih fun v hv => h v (List.mem_cons_of_mem w hv)]
    · rfl
    · simpa using hn

lemma wordsOf_flatMap (hsize : 0 < size) (h : ∀ w ∈ ws, w < 256 ^ size)
    (hmark : ∀ w ∈ ws.head?, w ≠ 0xfeff ∧ w ≠ 0xfffe) :
    wordsOf big size (ws.flatMap (wordBytes big size)) = ws.take (size * ws.length % 2 ^ 32 / size) := by
  have hn : size * ws.length % 2 ^ 32 / size ≤ ws.length := by
    rw [Nat.div_le_iff_le_mul_add_pred hsize]
    have := Nat.mod_le (size * ws.length) (2 ^ 32)
    omega
  have hskip : skipMark big size (ws.flatMap (wordBytes big size)) (size * ws.length % 2 ^ 32 / size) =
      (false, ws.flatMap (wordBytes big size), size * ws.length % 2 ^ 32 / size) := by
    cases ws with
    | nil => simp [skipMark]
    | cons w ws =>
      have hfirst : decodeWord big size ((w :: ws).flatMap (wordBytes big size)) false = w := by
        rw [List.flatMap_cons, decodeWord_wordBytes (h w List.mem_cons_self)]
      obtain ⟨hfeff, hfffe⟩ := hmark w rfl
      rw [skipMark, hfirst, if_neg hfeff, if_neg hfffe, ite_self]
  rw [wordsOf, wordBytes_flatMap_length]
  dsimp only
  rw [hskip]
  exact decodeWords_flatMap h hn

lemma joined_map {f : ℕ → Bytes × Bool} {g : ℕ → Bytes} {cs : List ℕ} (h : ∀ c ∈ cs, f c = (g c, false)) :
    joined (cs.map f) = (cs.flatMap g, false) := by
  induction cs with
  | nil => rfl
  | cons c cs ih =>
    have hrest := ih fun d hd => h d (List.mem_cons_of_mem c hd)
    rw [joined, Prod.mk.injEq] at hrest ⊢
    rw [List.map_cons, List.flatMap_cons, List.any_cons, h c List.mem_cons_self, hrest.1, hrest.2]
    exact ⟨rfl, rfl⟩

lemma flatMap_take_eq_iff {cs : List ℕ} (h : ∀ c ∈ cs, IsCharacter c) :
    (cs.take n).flatMap encode = cs.flatMap encode ↔ cs.length ≤ n := by
  constructor
  · intro heq
    have hchars := congrArg chars heq
    rw [chars_flatMap h, chars_flatMap fun c hc => h c (List.mem_of_mem_take hc)] at hchars
    exact List.take_eq_self_iff cs |>.mp hchars
  · intro hle
    rw [List.take_of_length_le hle]

end Words

def RoundTrips (convert back : Bytes → Bytes × Bool) (s : Bytes) : Prop :=
  (convert s).2 = false ∧ back (convert s).1 = (s, false)

section Words32

variable {big : Bool} {s : Bytes} {convert back : Bytes → Bytes × Bool}

lemma roundTrips_four_iff (hs : isUTF8 s = true) (hlt : ∀ c ∈ chars s, c < 0x110000)
    (hmark : (chars s).head? ≠ some 0xfeff) (hconvert : convert s = ((chars s).flatMap (wordBytes big 4), false))
    (hback : ∀ src cs, wordsOf big 4 src = cs → (∀ c ∈ cs, IsCharacter c ∧ c < 0x110000) →
      back src = (cs.flatMap encode, false)) :
    RoundTrips convert back s ↔ 4 * (chars s).length < 2 ^ 32 := by
  have hchars := (isUTF8_iff_chars s).mp hs
  have hbytes : ∀ w ∈ chars s, w < 256 ^ 4 := fun w hw => (hlt w hw).trans (by decide)
  have hwords := @wordsOf_flatMap big 4 _ (by decide) hbytes (by
      intro w hw
      refine ⟨fun heq => hmark (heq ▸ hw), fun heq => ?_⟩
      exact (hchars w (List.mem_of_mem_head? hw)).not_excluded (by rw [heq]; decide))
  have hresult := hback _ _ hwords fun c hc =>
    ⟨hchars c (List.mem_of_mem_take hc), hlt c (List.mem_of_mem_take hc)⟩
  rw [RoundTrips, hconvert, and_iff_right rfl, hresult, Prod.mk.injEq, and_iff_left rfl]
  nth_rewrite 3 [← flatMap_chars hs]
  rw [flatMap_take_eq_iff hchars]
  omega

lemma ne_invalid (hs : isUTF8 s = true) {c : ℕ} (hc : c ∈ chars s) : c ≠ s_invalid := by
  rintro rfl
  exact not_isCharacter_invalid ((isUTF8_iff_chars s).mp hs _ hc)

lemma utf8ToUTF32_eq (hs : isUTF8 s = true) (hlt : ∀ c ∈ chars s, c < 0x110000) :
    utf8ToUTF32 big s = ((chars s).flatMap (wordBytes big 4), false) := by
  apply joined_map
  intro c hc
  rw [if_neg (ne_invalid hs hc), if_neg (hlt c hc).not_ge]

lemma utf8ToUCS4_eq (hs : isUTF8 s = true) : utf8ToUCS4 big s = ((chars s).flatMap (wordBytes big 4), false) := by
  apply joined_map
  intro c hc
  dsimp only
  rw [if_neg (ne_invalid hs hc)]

lemma utf32ToUTF8_eq (src : Bytes) (cs : List ℕ) (hwords : wordsOf big 4 src = cs)
    (hcs : ∀ c ∈ cs, IsCharacter c ∧ c < 0x110000) : utf32ToUTF8 big src = (cs.flatMap encode, false) := by
  rw [utf32ToUTF8, hwords]
  apply joined_map
  intro c hc
  rw [if_neg (hcs c hc).2.not_ge, toUTF8_eq (hcs c hc).1]

lemma ucs4ToUTF8_eq (src : Bytes) (cs : List ℕ) (hwords : wordsOf big 4 src = cs)
    (hcs : ∀ c ∈ cs, IsCharacter c ∧ c < 0x110000) : ucs4ToUTF8 big src = (cs.flatMap encode, false) := by
  rw [ucs4ToUTF8, hwords]
  apply joined_map
  intro c hc
  exact toUTF8_eq (hcs c hc).1

end Words32

section Words16

variable {big : Bool} {s : Bytes} {c n : ℕ} {cs ws : List ℕ}

def utf16Words (c : ℕ) : List ℕ :=
  if c < 0x10000 then [c] else [((c - 0x10000) >>> 10) + 0xd800, ((c - 0x10000) &&& 0x03ff) + 0xdc00]

def utf16Length (cs : List ℕ) : ℕ := (cs.map fun c => if c < 0x10000 then 1 else 2).sum

lemma utf16OfChar_eq (c : ℕ) : utf16OfChar big c = (utf16Words c).flatMap (wordBytes big 2) := by
  rw [utf16OfChar, utf16Words]
  split_ifs <;> simp

lemma utf16Words_length (cs : List ℕ) : (cs.flatMap utf16Words).length = utf16Length cs := by
  induction cs with
  | nil => rfl
  | cons c cs ih =>
    rw [List.flatMap_cons, List.length_append, ih, utf16Length, utf16Length, List.map_cons, List.sum_cons, utf16Words]
    split_ifs <;> rfl

lemma surrogates (h : 0x10000 ≤ c) (hlt : c < 0x110000) : ∃ hi lo, utf16Words c = [hi, lo] ∧ 0xd800 ≤ hi ∧ hi ≤ 0xdbff ∧
    0xdc00 ≤ lo ∧ lo ≤ 0xdfff ∧ ((hi - 0xd800) <<< 10 ||| (lo - 0xdc00)) + 0x10000 = c := by
  have hmask : (c - 0x10000) &&& 0x03ff = (c - 0x10000) % 1024 := Nat.and_two_pow_sub_one_eq_mod _ 10
  have hshift : (c - 0x10000) >>> 10 = (c - 0x10000) / 1024 := Nat.shiftRight_eq_div_pow _ 10
  refine ⟨(c - 0x10000) / 1024 + 0xd800, (c - 0x10000) % 1024 + 0xdc00, ?_, by omega, by omega, by omega, by omega, ?_⟩
  · rw [utf16Words, if_neg h.not_gt, hmask, hshift]
  · rw [Nat.add_sub_cancel, Nat.add_sub_cancel, ← Nat.shiftLeft_add_eq_or_of_lt (by omega), Nat.shiftLeft_eq]
    omega

lemma convertUTF16_cons (h : c < 0xd800 ∨ c > 0xdfff) (ws : List ℕ) :
    convertUTF16 (c :: ws) = toUTF8 c :: convertUTF16 ws := by
  cases ws with
  | nil => rw [convertUTF16, convertUTF16, if_pos h]
  | cons w ws => rw [convertUTF16, if_pos h]

lemma convertUTF16_pair {hi lo : ℕ} (hhi : 0xd800 ≤ hi ∧ hi ≤ 0xdbff) (hlo : 0xdc00 ≤ lo ∧ lo ≤ 0xdfff) (ws : List ℕ) :
    convertUTF16 (hi :: lo :: ws) =
      toUTF8 (((hi - 0xd800) <<< 10 ||| (lo - 0xdc00)) + 0x10000) :: convertUTF16 ws := by
  rw [convertUTF16, if_neg (by omega), if_pos hhi, if_neg (by omega)]

lemma convertUTF16_char (hc : IsCharacter c) (hlt : c < 0x110000) (ws : List ℕ) :
    convertUTF16 (utf16Words c ++ ws) = (encode c, false) :: convertUTF16 ws := by
  by_cases h : c < 0x10000
  · have hplain : c < 0xd800 ∨ c > 0xdfff := by
      have := hc.not_excluded
      rw [IsExcluded] at this
      omega
    rw [utf16Words, if_pos h, List.singleton_append, convertUTF16_cons hplain, toUTF8_eq hc]
  · obtain ⟨hi, lo, hwords, hhi, hhi', hlo, hlo', hjoined⟩ := surrogates (not_lt.mp h) hlt
    rw [hwords, List.cons_append, List.singleton_append, convertUTF16_pair ⟨hhi, hhi'⟩ ⟨hlo, hlo'⟩, hjoined,
      toUTF8_eq hc]

lemma convertUTF16_chars (h : ∀ c ∈ cs, IsCharacter c ∧ c < 0x110000) :
    convertUTF16 (cs.flatMap utf16Words) = cs.map fun c => (encode c, false) := by
  induction cs with
  | nil => rfl
  | cons c cs ih =>
    have hc := h c List.mem_cons_self
    rw [List.flatMap_cons, convertUTF16_char hc.1 hc.2, ih fun d hd => h d (List.mem_cons_of_mem c hd), List.map_cons]

lemma convertUTF16_take (h : ∀ c ∈ cs, IsCharacter c ∧ c < 0x110000) (hn : n < utf16Length cs) :
    (∃ part ∈ convertUTF16 ((cs.flatMap utf16Words).take n), part.2 = true) ∨
      ∃ m < cs.length, convertUTF16 ((cs.flatMap utf16Words).take n) = (cs.take m).map fun c => (encode c, false) := by
  induction cs generalizing n with
  | nil => exact absurd hn (Nat.not_lt_zero n)
  | cons c cs ih =>
    have hc := h c List.mem_cons_self
    have hrest (d : ℕ) (hd : d ∈ cs) := h d (List.mem_cons_of_mem c hd)
    rw [utf16Length, List.map_cons, List.sum_cons, ← utf16Length] at hn
    by_cases hshort : n < (utf16Words c).length
    · by_cases hzero : n = 0
      · refine .inr ⟨0, by simp, ?_⟩
        rw [hzero]
        rfl
      · -- the first word of a pair
        by_cases hplane : c < 0x10000
        · rw [utf16Words, if_pos hplane] at hshort
          exact absurd (Nat.lt_one_iff.mp hshort) hzero
        obtain ⟨hi, lo, hwords, hhi, hhi', -⟩ := surrogates (not_lt.mp hplane) hc.2
        have hone : n = 1 := by
          rw [hwords] at hshort
          simp only [List.length_cons, List.length_nil] at hshort
          omega
        refine .inl ⟨unpaired, ?_, rfl⟩
        rw [hone, List.flatMap_cons, hwords, List.cons_append, List.take_succ_cons, List.take_zero, convertUTF16,
          if_neg (by omega)]
        exact List.mem_singleton_self _
    · have hlength : (utf16Words c).length = if c < 0x10000 then 1 else 2 := by
        rw [utf16Words]
        split_ifs <;> rfl
      have htake : ((c :: cs).flatMap utf16Words).take n =
          utf16Words c ++ (cs.flatMap utf16Words).take (n - (utf16Words c).length) := by
        rw [List.flatMap_cons, List.take_append, List.take_of_length_le (not_lt.mp hshort)]
      rw [htake, convertUTF16_char hc.1 hc.2]
      rcases ih hrest (n := n - (utf16Words c).length) (by omega) with ⟨part, hpart, herror⟩ | ⟨m, hm, hmap⟩
      · exact .inl ⟨part, List.mem_cons_of_mem _ hpart, herror⟩
      · refine .inr ⟨m + 1, by simpa using hm, ?_⟩
        rw [hmap, List.take_succ_cons, List.map_cons]

lemma utf8ToUTF16_eq (hs : isUTF8 s = true) (hlt : ∀ c ∈ chars s, c < 0x110000) :
    utf8ToUTF16 big s = (((chars s).flatMap utf16Words).flatMap (wordBytes big 2), false) := by
  rw [List.flatMap_assoc]
  apply joined_map
  intro c hc
  rw [if_neg (ne_invalid hs hc), if_neg (hlt c hc).not_ge, utf16OfChar_eq]

lemma utf16Words_lt (h : c < 0x110000) : ∀ w ∈ utf16Words c, w < 256 ^ 2 := by
  intro w hw
  by_cases hplane : c < 0x10000
  · rw [utf16Words, if_pos hplane, List.mem_singleton] at hw
    omega
  · obtain ⟨hi, lo, hwords, -, hhi, -, hlo, -⟩ := surrogates (not_lt.mp hplane) h
    rw [hwords] at hw
    rcases List.mem_cons.mp hw with rfl | hw
    · omega
    · rw [List.mem_singleton.mp hw]
      omega

lemma utf16Words_head (h : ∀ c ∈ cs, c < 0x110000) {w : ℕ} (hw : w ∈ (cs.flatMap utf16Words).head?) :
    cs.head? = some w ∨ 0xd800 ≤ w ∧ w ≤ 0xdbff := by
  cases cs with
  | nil => cases hw
  | cons c cs =>
    by_cases hplane : c < 0x10000
    · rw [List.flatMap_cons, utf16Words, if_pos hplane] at hw
      exact .inl hw
    · obtain ⟨hi, lo, hwords, hhi, hhi', -⟩ := surrogates (not_lt.mp hplane) (h c List.mem_cons_self)
      rw [List.flatMap_cons, hwords] at hw
      cases Option.some.inj hw
      exact .inr ⟨hhi, hhi'⟩

lemma roundTrips_utf16_iff (hs : isUTF8 s = true) (hlt : ∀ c ∈ chars s, c < 0x110000)
    (hmark : (chars s).head? ≠ some 0xfeff) :
    RoundTrips (utf8ToUTF16 big) (utf16ToUTF8 big) s ↔ 2 * utf16Length (chars s) < 2 ^ 32 := by
  have hchars := (isUTF8_iff_chars s).mp hs
  have hboth : ∀ c ∈ chars s, IsCharacter c ∧ c < 0x110000 := fun c hc => ⟨hchars c hc, hlt c hc⟩
  have hbytes : ∀ w ∈ (chars s).flatMap utf16Words, w < 256 ^ 2 := by
    intro w hw
    obtain ⟨c, hc, hw⟩ := List.mem_flatMap.mp hw
    exact utf16Words_lt (hlt c hc) w hw
  have hwords := @wordsOf_flatMap big 2 _ (by decide) hbytes (by
    intro w hw
    rcases utf16Words_head hlt hw with hhead | hhead
    · refine ⟨fun heq => hmark (heq ▸ hhead), fun heq => ?_⟩
      exact (hchars w (List.mem_of_mem_head? hhead)).not_excluded (by rw [heq]; decide)
    · omega)
  rw [utf16Words_length] at hwords
  rw [RoundTrips, utf8ToUTF16_eq hs hlt, and_iff_right rfl, utf16ToUTF8, hwords]
  constructor
  · intro hround
    by_contra hlong
    rcases convertUTF16_take hboth (n := 2 * utf16Length (chars s) % 2 ^ 32 / 2) (by omega) with
      ⟨part, hpart, herror⟩ | ⟨m, hm, hmap⟩
    · have := congrArg Prod.snd hround
      rw [joined, List.any_eq_false] at this
      exact this part hpart herror
    · rw [hmap, joined_map (g := encode) fun c _ => rfl, Prod.mk.injEq] at hround
      have hsame := hround.1
      rw [← flatMap_chars hs] at hsame
      rw [chars_flatMap hchars] at hsame
      exact absurd ((flatMap_take_eq_iff hchars).mp hsame) (not_le.mpr hm)
  · intro hshort
    rw [List.take_of_length_le, convertUTF16_chars hboth, joined_map (g := encode) fun c _ => rfl, flatMap_chars hs]
    rw [utf16Words_length]
    omega

end Words16

section Texts

/-- A text of valid characters is lost only where its wide string has four gigabytes. -/
theorem roundTrips_iff (big : Bool) (s : Bytes) (hs : isUTF8 s = true) (hlt : ∀ c ∈ chars s, c < 0x110000)
    (hmark : (chars s).head? ≠ some 0xfeff) :
    (RoundTrips (utf8ToUTF16 big) (utf16ToUTF8 big) s ↔ 2 * utf16Length (chars s) < 2 ^ 32) ∧
      (RoundTrips (utf8ToUTF32 big) (utf32ToUTF8 big) s ↔ 4 * (chars s).length < 2 ^ 32) ∧
      (RoundTrips (utf8ToUCS4 big) (ucs4ToUTF8 big) s ↔ 4 * (chars s).length < 2 ^ 32) := by
  refine ⟨roundTrips_utf16_iff hs hlt hmark, ?_, ?_⟩
  · exact roundTrips_four_iff hs hlt hmark (utf8ToUTF32_eq hs hlt) utf32ToUTF8_eq
  · exact roundTrips_four_iff hs hlt hmark (utf8ToUCS4_eq hs) ucs4ToUTF8_eq

theorem roundTrips_letter : RoundTrips (utf8ToUTF16 false) (utf16ToUTF8 false) [0x61] ∧
    RoundTrips (utf8ToUTF32 false) (utf32ToUTF8 false) [0x61] ∧
    RoundTrips (utf8ToUCS4 false) (ucs4ToUTF8 false) [0x61] := by
  have h := roundTrips_iff false [0x61] (by decide) (by decide) (by decide)
  exact ⟨h.1.mpr (by decide), h.2.1.mpr (by decide), h.2.2.mpr (by decide)⟩

/-- Two gigabytes of a letter, whose wide strings of four and eight gigabytes have no words to the conversions back. -/
def manyLetters : Bytes := List.replicate (2 ^ 31) 0x61

lemma chars_manyLetters : isUTF8 manyLetters = true ∧ chars manyLetters = List.replicate (2 ^ 31) 0x61 := by
  have hbytes : manyLetters = (List.replicate (2 ^ 31) 0x61).flatMap encode := by
    have hone : encode 0x61 = [0x61] := by decide
    rw [manyLetters, List.flatMap_replicate, hone, List.flatten_replicate_singleton]
  have hcharacter : ∀ c ∈ List.replicate (2 ^ 31) 0x61, IsCharacter c := by
    intro c hc
    rw [List.eq_of_mem_replicate hc]
    exact ⟨by decide, by decide⟩
  have hchars : chars manyLetters = List.replicate (2 ^ 31) 0x61 := by
    rw [hbytes, chars_flatMap hcharacter]
  refine ⟨?_, hchars⟩
  rw [isUTF8_iff_chars, hchars]
  exact hcharacter

theorem manyLetters_lost :
    isUTF8 manyLetters = true ∧ (∀ c ∈ chars manyLetters, c < 0x110000) ∧ (chars manyLetters).head? ≠ some 0xfeff ∧
      ∀ big, ¬ RoundTrips (utf8ToUTF16 big) (utf16ToUTF8 big) manyLetters := by
  obtain ⟨hs, hchars⟩ := chars_manyLetters
  have hlt : ∀ c ∈ chars manyLetters, c < 0x110000 := by
    intro c hc
    rw [hchars] at hc
    rw [List.eq_of_mem_replicate hc]
    decide
  have hmark : (chars manyLetters).head? ≠ some 0xfeff := by
    rw [hchars, List.head?_replicate]
    decide
  refine ⟨hs, hlt, hmark, fun big hround => ?_⟩
  have hlength := (roundTrips_utf16_iff hs hlt hmark).mp hround
  have hwords (n : ℕ) : utf16Length (List.replicate n 0x61) = n := by
    simp [utf16Length]
  rw [hchars, hwords] at hlength
  omega

end Texts

end InputLeap.Unicode
