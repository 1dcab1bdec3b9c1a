import Mathlib.Data.List.DropRight
import Mathlib.Data.List.TakeWhile
import Mathlib.Data.Nat.Digits.Defs
import Mathlib.Algebra.Order.Ring.Int
import Mathlib.Algebra.Order.Ring.Rat
import Mathlib.Algebra.Field.Rat
import Mathlib.Tactic.Ring

/-! Text as lists of characters: lines, words between blanks, and numbers as the C library reads and
prints them. -/

namespace InputLeap.Lib.Text

abbrev Chars := List Char

section Decidable

-- what is said of the characters of a text is decided on them, not on all characters that there are
variable (p : Char → Prop) [DecidablePred p] (s : Chars) (o : Option Char)

instance (priority := 2000) decidableBAll : Decidable (∀ c ∈ s, p c) := List.decidableBAll p s

instance (priority := 2000) decidableBEx : Decidable (∃ c ∈ s, p c) := List.decidableBEx p s

instance (priority := 2000) decidableForallMem : Decidable (∀ c ∈ o, p c) := Option.decidableForallMem o

instance (priority := 2000) decidableExistsMem : Decidable (∃ c ∈ o, p c) := Option.decidableExistsMem o

end Decidable

def isBlank (c : Char) : Bool := c == ' ' || c == '\t'

/-- `isgraph` in the C locale. -/
def isGraph (c : Char) : Bool := decide (33 ≤ c.toNat ∧ c.toNat ≤ 126)

lemma isAlphanum_iff {c : Char} : c.isAlphanum = true ↔
    48 ≤ c.toNat ∧ c.toNat ≤ 57 ∨ 65 ≤ c.toNat ∧ c.toNat ≤ 90 ∨ 97 ≤ c.toNat ∧ c.toNat ≤ 122 := by
  change (decide (c.val ≥ 'A'.val ∧ c.val ≤ 'Z'.val) || (decide (c.val ≥ 'a'.val) && decide (c.val ≤ 'z'.val)) ||
    (decide (c.val ≥ '0'.val) && decide (c.val ≤ '9'.val))) = true ↔ _
  simp only [Bool.or_eq_true, Bool.and_eq_true, decide_eq_true_eq, ge_iff_le, UInt32.le_iff_toNat_le, Char.toNat_val, Char.reduceToNat]
  omega

lemma toNat_toLower (c : Char) : c.toLower.toNat = if 65 ≤ c.toNat ∧ c.toNat ≤ 90 then c.toNat + 32 else c.toNat := by
  have hiff : (c.val ≥ 'A'.val ∧ c.val ≤ 'Z'.val) ↔ 65 ≤ c.toNat ∧ c.toNat ≤ 90 := by
    simp only [ge_iff_le, UInt32.le_iff_toNat_le, Char.toNat_val, Char.reduceToNat]
  unfold Char.toLower
  by_cases h : c.val ≥ 'A'.val ∧ c.val ≤ 'Z'.val
  · rw [dif_pos h, if_pos (hiff.mp h)]
    have := hiff.mp h
    change (c.val + ('a'.val - 'A'.val)).toNat = _
    rw [UInt32.toNat_add, Char.toNat_val]
    change (c.toNat + 32) % 2 ^ 32 = _
    omega
  · rw [dif_neg h, if_neg (hiff.not.mp h)]

/-- `getline` until the end of the text. A line break at the end starts no line. -/
def getlines (line : Chars) : Chars → List Chars
  | [] => if line = [] then [] else [line]
  | c :: s => if c = '\n' then line :: getlines [] s else getlines (line ++ [c]) s

def unlines (lines : List Chars) : Chars := lines.flatMap fun line => line ++ ['\n']

lemma getlines_line (line : Chars) {word : Chars} (h : '\n' ∉ word) (s : Chars) :
    getlines line (word ++ '\n' :: s) = (line ++ word) :: getlines [] s := by
  induction word generalizing line with
  | nil => simp [getlines]
  | cons c word ih =>
    have hc : c ≠ '\n' := fun hc => h (hc ▸ List.mem_cons_self)
    rw [List.cons_append, getlines, if_neg hc, ih _ fun hmem => h (List.mem_cons_of_mem c hmem), List.append_assoc]
    rfl

lemma getlines_unlines {lines : List Chars} (h : ∀ line ∈ lines, '\n' ∉ line) : getlines [] (unlines lines) = lines := by
  induction lines with
  | nil => rfl
  | cons line lines ih =>
    have htail : unlines (line :: lines) = line ++ '\n' :: unlines lines := by simp [unlines]
    rw [htail, getlines_line [] (h line List.mem_cons_self), ih fun l hl => h l (List.mem_cons_of_mem line hl)]
    rfl

lemma takeWhile_word {p : Char → Bool} {word rest : Chars} (hword : ∀ c ∈ word, p c = true)
    (hrest : ∀ c ∈ rest.head?, p c = false) : (word ++ rest).takeWhile p = word := by
  rw [List.takeWhile_append_of_pos hword]
  cases rest with
  | nil => simp
  | cons c rest => rw [List.takeWhile_cons_of_neg (by simp [hrest c rfl]), List.append_nil]

lemma dropWhile_word {p : Char → Bool} {word rest : Chars} (hword : ∀ c ∈ word, p c = true)
    (hrest : ∀ c ∈ rest.head?, p c = false) : (word ++ rest).dropWhile p = rest := by
  rw [List.dropWhile_append_of_pos hword]
  cases rest with
  | nil => rfl
  | cons c rest => rw [List.dropWhile_cons_of_neg (by simp [hrest c rfl])]

lemma dropWhile_head {p : Char → Bool} {s : Chars} (h : ∀ c ∈ s.head?, p c = false) : s.dropWhile p = s :=
  @dropWhile_word p [] s (by simp) h

lemma rdropWhile_last {p : Char → Bool} {s : Chars} (h : ∀ c ∈ s.getLast?, p c = false) : s.rdropWhile p = s := by
  rw [List.rdropWhile, dropWhile_head (by simpa using h), List.reverse_reverse]

/-- Leading and then trailing blanks are taken away, if there is anything else. -/
def trim (s : Chars) : Chars := if s.all isBlank then s else (s.dropWhile isBlank).rdropWhile isBlank

lemma trim_eq {s : Chars} (hfirst : ∀ c ∈ s.head?, isBlank c = false) (hlast : ∀ c ∈ s.getLast?, isBlank c = false) :
    trim s = s := by
  rw [trim, dropWhile_head hfirst, rdropWhile_last hlast, ite_self]

section Numbers

def isDigit (c : Char) : Bool := decide (48 ≤ c.toNat ∧ c.toNat ≤ 57)

def digitValue (c : Char) : Option ℕ :=
  let n := c.toNat
  if 48 ≤ n ∧ n ≤ 57 then some (n - 48)
  else if 97 ≤ n ∧ n ≤ 122 then some (n - 87)
  else if 65 ≤ n ∧ n ≤ 90 then some (n - 55)
  else none

def isDigitOf (base : ℕ) (c : Char) : Bool := (digitValue c).any fun d => decide (d < base)

def digitsValue (base : ℕ) (s : Chars) : ℕ := s.foldl (fun n c => base * n + (digitValue c).getD 0) 0

def takeSign : Chars → Bool × Chars
  | '-' :: s => (true, s)
  | '+' :: s => (false, s)
  | s => (false, s)

def signed (negative : Bool) (n : ℕ) : ℤ := if negative then -(n : ℤ) else n

/-- `strtol` takes a `0x` before the digits to base 16, if a digit follows. -/
def dropHexMark (s : Chars) : Chars :=
  match s with
  | '0' :: x :: d :: rest => if (x = 'x' ∨ x = 'X') ∧ isDigitOf 16 d then d :: rest else s
  | _ => s

def isSpace (c : Char) : Bool := decide (c = ' ' ∨ 9 ≤ c.toNat ∧ c.toNat ≤ 13)

/-- `strtol` in 64 bits, with what it leaves of the text. Without a digit it leaves everything. -/
def strtol (base : ℕ) (s : Chars) : ℤ × Chars :=
  let (negative, t) := takeSign (s.dropWhile isSpace)
  let t := if base = 16 then dropHexMark t else t
  let digits := t.takeWhile (isDigitOf base)
  if digits = [] then (0, s)
  else
    (max (-2 ^ 63) (min (signed negative (digitsValue base digits)) (2 ^ 63 - 1)), t.dropWhile (isDigitOf base))

def scaled (base : ℕ) (exponent : ℤ) (q : ℚ) : ℚ :=
  if 0 ≤ exponent then q * base ^ exponent.toNat else q / base ^ (-exponent).toNat

def takeExponent (isMark : Char → Bool) (s : Chars) : ℤ × Chars :=
  match s with
  | [] => (0, s)
  | c :: t =>
    let (negative, u) := takeSign t
    let digits := u.takeWhile isDigit
    if isMark c = false ∨ digits = [] then (0, s)
    else (signed negative (digitsValue 10 digits), u.dropWhile isDigit)

def isHexMarked : Chars → Bool
  | '0' :: x :: rest =>
    decide (x = 'x' ∨ x = 'X') &&
      match rest with
      | '.' :: d :: _ => isDigitOf 16 d
      | d :: _ => isDigitOf 16 d
      | [] => false
  | _ => false

/-- `strtod` on exact numbers, decimal or hexadecimal. Infinity and `nan` are no numbers here. -/
def strtod (s : Chars) : ℚ × Chars :=
  let (negative, t) := takeSign (s.dropWhile isSpace)
  let hex := isHexMarked t
  let base := if hex then 16 else 10
  let t := if hex then t.drop 2 else t
  let whole := t.takeWhile (isDigitOf base)
  let t := t.dropWhile (isDigitOf base)
  let (fraction, t) :=
    match t with
    | '.' :: u => (u.takeWhile (isDigitOf base), u.dropWhile (isDigitOf base))
    | _ => ([], t)
  if whole = [] ∧ fraction = [] then (0, s)
  else
    let (exponent, t) :=
      if hex then takeExponent (fun c => c == 'p' || c == 'P') t else takeExponent (fun c => c == 'e' || c == 'E') t
    let n : ℚ := digitsValue base (whole ++ fraction) / (base : ℚ) ^ fraction.length
    (scaled (if hex then 2 else 10) exponent (if negative then -n else n), t)

/-- `%d`. -/
def formatInt (n : ℤ) : Chars := if n < 0 then '-' :: Nat.toDigits 10 n.natAbs else Nat.toDigits 10 n.natAbs

/-- `%0wx`. -/
def formatHex (width n : ℕ) : Chars := (Nat.toDigits 16 n).leftpad width '0'

lemma digitValue_digitChar {d : ℕ} (h : d < 16) : digitValue d.digitChar = some d := by
  revert d
  decide

lemma isDigitOf_digitChar {base d : ℕ} (hbase : base ≤ 16) (h : d < base) : isDigitOf base d.digitChar = true := by
  rw [isDigitOf, digitValue_digitChar (h.trans_le hbase)]
  exact decide_eq_true h

section Digits

variable {base : ℕ} (hbase : 1 < base ∧ base ≤ 16)

include hbase

lemma isDigitOf_toDigits (n : ℕ) : ∀ c ∈ Nat.toDigits base n, isDigitOf base c = true := by
  induction n using Nat.strong_induction_on with
  | _ n ih =>
    intro c hc
    rw [Nat.toDigits_eq_if hbase.1] at hc
    split_ifs at hc with hn
    · obtain rfl := List.mem_singleton.mp hc
      exact isDigitOf_digitChar hbase.2 hn
    · rcases List.mem_append.mp hc with hc | hc
      · exact ih (n / base) (Nat.div_lt_self (by omega) hbase.1) c hc
      · obtain rfl := List.mem_singleton.mp hc
        exact isDigitOf_digitChar hbase.2 (Nat.mod_lt n (by omega))

lemma digitsValue_toDigits (n : ℕ) : digitsValue base (Nat.toDigits base n) = n := by
  induction n using Nat.strong_induction_on with
  | _ n ih =>
    rw [Nat.toDigits_eq_if hbase.1]
    split_ifs with hn
    · rw [digitsValue, List.foldl_cons, List.foldl_nil, digitValue_digitChar (hn.trans_le hbase.2)]
      simp
    · have hmod : n % base < 16 := (Nat.mod_lt n (by omega)).trans_le hbase.2
      rw [digitsValue, List.foldl_append, List.foldl_cons, List.foldl_nil, digitValue_digitChar hmod]
      rw [← digitsValue, ih (n / base) (Nat.div_lt_self (by omega) hbase.1)]
      exact Nat.div_add_mod n base

end Digits

lemma isDigitOf_ten {c : Char} : isDigitOf 10 c = isDigit c := by
  rw [Bool.eq_iff_iff, isDigitOf, isDigit, digitValue, decide_eq_true_iff]
  split_ifs with h h' h''
  · simp only [Option.any_some, decide_eq_true_eq]
    omega
  · simp only [Option.any_some, decide_eq_true_eq]
    omega
  · simp only [Option.any_some, decide_eq_true_eq]
    omega
  · simp [h]

lemma isDigit_toDigits {n : ℕ} {c : Char} (h : c ∈ Nat.toDigits 10 n) : isDigit c = true := by
  rw [← isDigitOf_ten]
  exact isDigitOf_toDigits (by decide) n c h

lemma isDigit_ne {c d : Char} (h : isDigit c = true) (hd : isDigit d = false) : c ≠ d := by
  rintro rfl
  exact Bool.false_ne_true (hd ▸ h)

lemma isSpace_of_isDigit {c : Char} (h : isDigit c = true) : isSpace c = false := by
  have hc := of_decide_eq_true h
  apply decide_eq_false
  rintro (rfl | hspace)
  · exact absurd hc (by decide)
  · omega

lemma takeSign_digit {c : Char} {s : Chars} (h : isDigit c = true) : takeSign (c :: s) = (false, c :: s) := by
  have hminus := isDigit_ne h (d := '-') (by decide)
  have hplus := isDigit_ne h (d := '+') (by decide)
  unfold takeSign
  split <;> simp_all

lemma exists_digit (n : ℕ) : ∃ c s, Nat.toDigits 10 n = c :: s ∧ isDigit c = true := by
  obtain ⟨c, s, hcs⟩ := List.exists_cons_of_ne_nil (Nat.toDigits_ne_nil (b := 10) (n := n))
  exact ⟨c, s, hcs, isDigit_toDigits (hcs ▸ List.mem_cons_self)⟩

lemma strtol_toDigits_min (n : ℕ) {rest : Chars} (hrest : ∀ c ∈ rest.head?, isDigit c = false) :
    strtol 10 (Nat.toDigits 10 n ++ rest) = (min (n : ℤ) (2 ^ 63 - 1), rest) := by
  have hdigits := fun c (hc : c ∈ Nat.toDigits 10 n) => isDigitOf_ten.trans (isDigit_toDigits hc)
  have hend : ∀ c ∈ rest.head?, isDigitOf 10 c = false := fun c hc => isDigitOf_ten.trans (hrest c hc)
  obtain ⟨c, s, hcs, hc⟩ := exists_digit n
  have hspace : (Nat.toDigits 10 n ++ rest).dropWhile isSpace = Nat.toDigits 10 n ++ rest :=
    dropWhile_head (by simpa [hcs] using isSpace_of_isDigit hc)
  have hsign : takeSign (Nat.toDigits 10 n ++ rest) = (false, Nat.toDigits 10 n ++ rest) := by
    rw [hcs, List.cons_append, takeSign_digit hc]
  rw [strtol, hspace, hsign]
  dsimp only
  rw [if_neg (by decide : ¬ 10 = 16), takeWhile_word hdigits hend, dropWhile_word hdigits hend,
    if_neg Nat.toDigits_ne_nil, digitsValue_toDigits (by decide)]
  simp only [signed, Bool.false_eq_true, if_false, Prod.mk.injEq, and_true]
  omega

lemma strtol_toDigits {n : ℕ} (hn : n < 2 ^ 63) {rest : Chars} (hrest : ∀ c ∈ rest.head?, isDigit c = false) :
    strtol 10 (Nat.toDigits 10 n ++ rest) = ((n : ℤ), rest) := by
  rw [strtol_toDigits_min n hrest, min_eq_left (by omega)]

lemma strtol_formatInt {n : ℤ} (hn : n.natAbs < 2 ^ 63) {rest : Chars} (hrest : ∀ c ∈ rest.head?, isDigit c = false) :
    strtol 10 (formatInt n ++ rest) = (n, rest) := by
  rw [formatInt]
  split_ifs with hneg
  · have hdigits := fun c (hc : c ∈ Nat.toDigits 10 n.natAbs) => isDigitOf_ten.trans (isDigit_toDigits hc)
    have hend : ∀ c ∈ rest.head?, isDigitOf 10 c = false := fun c hc => isDigitOf_ten.trans (hrest c hc)
    have hspace : ('-' :: Nat.toDigits 10 n.natAbs ++ rest).dropWhile isSpace = '-' :: Nat.toDigits 10 n.natAbs ++ rest :=
      dropWhile_head (by simp [isSpace])
    rw [strtol, hspace, List.cons_append, takeSign]
    dsimp only
    rw [if_neg (by decide : ¬ 10 = 16), takeWhile_word hdigits hend, dropWhile_word hdigits hend,
      if_neg Nat.toDigits_ne_nil, digitsValue_toDigits (by decide)]
    simp only [signed, if_true, Prod.mk.injEq, and_true]
    omega
  · rw [strtol_toDigits hn hrest]
    simp only [Prod.mk.injEq, and_true]
    omega

lemma isDigitOf_sixteen_iff {c : Char} : isDigitOf 16 c = true ↔
    48 ≤ c.toNat ∧ c.toNat ≤ 57 ∨ 97 ≤ c.toNat ∧ c.toNat ≤ 102 ∨ 65 ≤ c.toNat ∧ c.toNat ≤ 70 := by
  rw [isDigitOf, digitValue]
  split_ifs with h h' h''
  · simp only [Option.any_some, decide_eq_true_eq]
    omega
  · simp only [Option.any_some, decide_eq_true_eq]
    omega
  · simp only [Option.any_some, decide_eq_true_eq]
    omega
  · simp only [Option.any_none, Bool.false_eq_true, false_iff]
    omega

lemma strtol_hexDigits {s : Chars} (hne : s ≠ []) (h : ∀ c ∈ s, isDigitOf 16 c = true)
    (hlt : digitsValue 16 s < 2 ^ 63) : strtol 16 s = ((digitsValue 16 s : ℤ), []) := by
  obtain ⟨c, t, rfl⟩ := List.exists_cons_of_ne_nil hne
  have hc := h c List.mem_cons_self
  have hdigit {d : Char} (hd : isDigitOf 16 d = false) : ∀ e ∈ c :: t, e ≠ d := by
    rintro e he rfl
    exact Bool.false_ne_true (hd ▸ h e he)
  have hspace : isSpace c = false := by
    rw [isDigitOf_sixteen_iff] at hc
    apply decide_eq_false
    rintro (rfl | hspace)
    · exact absurd hc (by decide)
    · omega
  have hsign : takeSign (c :: t) = (false, c :: t) := by
    have hminus : c ≠ '-' := hdigit (by decide) c List.mem_cons_self
    have hplus : c ≠ '+' := hdigit (by decide) c List.mem_cons_self
    unfold takeSign
    split <;> simp_all
  have hmark : dropHexMark (c :: t) = c :: t := by
    unfold dropHexMark
    split
    · rename_i x d rest heq
      have hx : x ∈ c :: t := by rw [heq]; simp
      rw [if_neg]
      rintro ⟨hx' | hx', -⟩
      · exact hdigit (by decide) x hx hx'
      · exact hdigit (by decide) x hx hx'
    · rfl
  have htake : (c :: t).takeWhile (isDigitOf 16) = c :: t := List.takeWhile_eq_self_iff.mpr h
  have hdrop : (c :: t).dropWhile (isDigitOf 16) = [] := List.dropWhile_eq_nil_iff.mpr h
  rw [strtol, List.dropWhile_cons_of_neg (by simp [hspace]), hsign]
  dsimp only
  rw [if_pos rfl, hmark, htake, hdrop, if_neg hne]
  simp only [signed, Bool.false_eq_true, if_false, Prod.mk.injEq, and_true]
  omega

lemma formatHex_chars (width n : ℕ) : formatHex width n ≠ [] ∧ ∀ c ∈ formatHex width n, isDigitOf 16 c = true := by
  have htext : formatHex width n = List.replicate (width - (Nat.toDigits 16 n).length) '0' ++ Nat.toDigits 16 n := rfl
  rw [htext]
  refine ⟨List.append_ne_nil_of_right_ne_nil _ Nat.toDigits_ne_nil, ?_⟩
  intro c hc
  rcases List.mem_append.mp hc with hc | hc
  · rw [List.eq_of_mem_replicate hc]
    rfl
  · exact isDigitOf_toDigits (by decide) n c hc

lemma digitsValue_formatHex (width n : ℕ) : digitsValue 16 (formatHex width n) = n := by
  have hzeros (k : ℕ) : (List.replicate k '0').foldl (fun n c => 16 * n + (digitValue c).getD 0) 0 = 0 := by
    induction k with
    | zero => rfl
    | succ k ih => exact ih
  have htext : formatHex width n = List.replicate (width - (Nat.toDigits 16 n).length) '0' ++ Nat.toDigits 16 n := rfl
  rw [htext, digitsValue, List.foldl_append, hzeros]
  exact digitsValue_toDigits (by decide) n

lemma length_formatHex {width n : ℕ} (hwidth : 0 < width) : (formatHex width n).length = width ↔ n < 16 ^ width := by
  rw [formatHex, List.length_leftpad, ← Nat.length_toDigits_le_iff (by decide) hwidth]
  omega

lemma isHexMarked_digits {s : Chars} (h : ∀ c ∈ s, isDigit c = true) : isHexMarked s = false := by
  unfold isHexMarked
  split
  · rename_i x rest
    have hx : isDigit x = true := h x (by simp)
    have hne {d : Char} (hd : isDigit d = false) : x ≠ d := isDigit_ne hx hd
    simp [hne (d := 'x') (by decide), hne (d := 'X') (by decide)]
  · rfl

lemma strtod_toDigits (n : ℕ) : strtod (Nat.toDigits 10 n) = ((n : ℚ), []) := by
  have hdigits := fun c (hc : c ∈ Nat.toDigits 10 n) => isDigit_toDigits hc
  have hdigits' := fun c (hc : c ∈ Nat.toDigits 10 n) => isDigitOf_ten.trans (hdigits c hc)
  obtain ⟨c, s, hcs, hc⟩ := exists_digit n
  have hspace : (Nat.toDigits 10 n).dropWhile isSpace = Nat.toDigits 10 n :=
    dropWhile_head (by simpa [hcs] using isSpace_of_isDigit hc)
  have hsign : takeSign (Nat.toDigits 10 n) = (false, Nat.toDigits 10 n) := by
    rw [hcs, takeSign_digit hc]
  have htake : (Nat.toDigits 10 n).takeWhile (isDigitOf 10) = Nat.toDigits 10 n :=
    List.takeWhile_eq_self_iff.mpr hdigits'
  have hdrop : (Nat.toDigits 10 n).dropWhile (isDigitOf 10) = [] := List.dropWhile_eq_nil_iff.mpr hdigits'
  rw [strtod, hspace, hsign]
  simp only [isHexMarked_digits hdigits, Bool.false_eq_true, if_false, htake, hdrop, and_true, Nat.toDigits_ne_nil,
    List.append_nil, digitsValue_toDigits (by decide : 1 < 10 ∧ 10 ≤ 16), List.length_nil, pow_zero, div_one, takeExponent]
  simp [scaled]

end Numbers

end InputLeap.Lib.Text
