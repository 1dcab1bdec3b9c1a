import InputLeap.Keys.KeyNames
import Mathlib.Data.List.Nodup

/-! Keystrokes as they are printed and read again. The table of names is large, so that its names are told apart by a
hash; all that is checked of the table is checked at once. -/

namespace InputLeap.KeyNames

open InputLeap.Lib.Text

section Distinct

def distinct : ℕ → List ℕ → Bool
  | _, [] => true
  | seen, n :: ns => !seen.testBit n && distinct (seen ||| 1 <<< n) ns

lemma nodup_of_distinct {seen : ℕ} {ns : List ℕ} (h : distinct seen ns = true) :
    ns.Nodup ∧ ∀ n ∈ ns, seen.testBit n = false := by
  induction ns generalizing seen with
  | nil => simp
  | cons n ns ih =>
    rw [distinct, Bool.and_eq_true, Bool.not_eq_true'] at h
    obtain ⟨hnodup, hrest⟩ := ih h.2
    have hbits : ∀ m ∈ ns, seen.testBit m = false ∧ n ≠ m := by
      intro m hm
      have := hrest m hm
      rw [Nat.testBit_or, Bool.or_eq_false_iff, Nat.one_shiftLeft, Nat.testBit_two_pow] at this
      exact ⟨this.1, of_decide_eq_false this.2⟩
    refine ⟨List.nodup_cons.mpr ⟨fun hn => (hbits n hn).2 rfl, hnodup⟩, ?_⟩
    intro m hm
    rcases List.mem_cons.mp hm with rfl | hm
    · exact h.1
    · exact (hbits m hm).1

end Distinct

section Table

/-- No two names of keys have the same hash, which is faster to check than that no two are the same. -/
def nameHash (name : Name) : ℕ := name.foldl (fun n c => (31 * n + c.toLower.toNat) % 3213) 0

lemma nameHash_caseless {a b : Name} (h : caseless a = caseless b) : nameHash a = nameHash b := by
  have hfold (name : Name) : nameHash name = (caseless name).foldl (fun n c => (31 * n + c.toNat) % 3213) 0 := by
    rw [nameHash, caseless, List.foldl_map]
  rw [hfold, hfold, h]

def isKeyChar (c : Char) : Bool := c.isAlphanum || c == '_'

def isKeyWord (name : Name) : Bool := decide (2 ≤ name.length ∧ name.length ≤ 20) && name.all isKeyChar

def keyNames : List Name := keyNameMap.map fun row => row.1.toList

lemma keyNames_checked : (keyNames.all isKeyWord && distinct 0 (keyNames.map nameHash) &&
    keyNames.all fun name => decide (name = "AltGr".toList) || (byName modifierNameMap name).isNone) = true := by
  decide +kernel

lemma graph_checked : ((List.range 127).all fun n =>
    decide (n < 33) || (Char.ofNat n).isAlphanum || keyNameMap.any fun row => row.2.toNat == n) = true := by
  decide +kernel

lemma isKeyWord_of_mem {name : Name} (h : name ∈ keyNames) :
    (2 ≤ name.length ∧ name.length ≤ 20) ∧ ∀ c ∈ name, isKeyChar c = true := by
  have hchecked := keyNames_checked
  rw [Bool.and_eq_true, Bool.and_eq_true] at hchecked
  have := List.all_eq_true.mp hchecked.1.1 name h
  rw [isKeyWord, Bool.and_eq_true, decide_eq_true_eq, List.all_eq_true] at this
  exact this

lemma not_modifier_of_mem {name : Name} (h : name ∈ keyNames) (hne : name ≠ "AltGr".toList) :
    byName modifierNameMap name = none := by
  have hchecked := keyNames_checked
  rw [Bool.and_eq_true] at hchecked
  have := List.all_eq_true.mp hchecked.2 name h
  rw [Bool.or_eq_true, decide_eq_true_eq, Option.isNone_iff_eq_none] at this
  exact this.resolve_left hne

lemma keyNames_unique {r r' : String × BitVec 32} (hr : r ∈ keyNameMap) (hr' : r' ∈ keyNameMap)
    (h : caseless r.1.toList = caseless r'.1.toList) : r = r' := by
  have hchecked := keyNames_checked
  rw [Bool.and_eq_true, Bool.and_eq_true] at hchecked
  have hnodup := (nodup_of_distinct hchecked.1.2).1
  rw [keyNames, List.map_map] at hnodup
  exact List.inj_on_of_nodup_map hnodup hr hr' (nameHash_caseless h)

lemma byName_row {row : String × BitVec 32} (h : row ∈ keyNameMap) : byName keyNameMap row.1.toList = some row.2 := by
  rw [byName]
  cases hfind : keyNameMap.find? fun e => decide (caseless e.1.toList = caseless row.1.toList) with
  | none =>
    have := List.find?_eq_none.mp hfind row h
    simp at this
  | some r =>
    have hsame := List.find?_some hfind
    rw [keyNames_unique (List.mem_of_find?_eq_some hfind) h (of_decide_eq_true hsame)]
    rfl

section Misses

variable {table : List (String × BitVec 32)}

lemma byName_eq_none {name : Name} (h : ∀ row ∈ table, caseless row.1.toList ≠ caseless name) :
    byName table name = none := by
  rw [byName, List.find?_eq_none.mpr]
  · rfl
  · intro row hrow
    rw [decide_eq_true_eq]
    exact h row hrow

lemma byName_char (htable : ∀ row ∈ table, 2 ≤ row.1.toList.length) (c : Char) : byName table [c] = none := by
  apply byName_eq_none
  intro row hrow heq
  have hlength := congrArg List.length heq
  rw [caseless, caseless, List.length_map, List.length_map, List.length_singleton] at hlength
  have := htable row hrow
  omega

lemma byName_head {c : Char} (htable : ∀ row ∈ table, ∀ d ∈ row.1.toList.head?, d.toLower ≠ c.toLower) (s : Name) :
    byName table (c :: s) = none := by
  apply byName_eq_none
  intro row hrow heq
  cases hrow' : row.1.toList with
  | nil =>
    rw [hrow'] at heq
    nomatch heq
  | cons d t =>
    rw [hrow'] at heq
    exact htable row hrow d (by rw [hrow']; rfl) (List.cons.inj heq).1

end Misses

lemma row_of_nameOf {key : BitVec 32} {name : Name} (h : nameOf keyNameMap key = some name) :
    ∃ row ∈ keyNameMap, row.2 = key ∧ row.1.toList = name := by
  obtain ⟨row, hfind, rfl⟩ := Option.map_eq_some_iff.mp h
  have hid := List.find?_some hfind
  exact ⟨row, List.mem_of_find?_eq_some hfind, of_decide_eq_true hid, rfl⟩

end Table

section Keys

/-- A key that is printed in a way in which it can be read. -/
def Printable (key : BitVec 32) : Prop := (nameOf keyNameMap key).isSome = true ∨ key.toNat < 16 ^ 4

instance (key : BitVec 32) : Decidable (Printable key) := inferInstanceAs (Decidable (_ ∨ _))

lemma isKeyChar_iff {c : Char} : isKeyChar c = true ↔ 48 ≤ c.toNat ∧ c.toNat ≤ 57 ∨ 65 ≤ c.toNat ∧ c.toNat ≤ 90 ∨
    97 ≤ c.toNat ∧ c.toNat ≤ 122 ∨ c.toNat = 95 := by
  simp only [isKeyChar, Bool.or_eq_true, isAlphanum_iff, beq_iff_eq, ← Char.toNat_inj, Char.reduceToNat]
  omega

lemma isKeyWord_row {row : String × BitVec 32} (h : row ∈ keyNameMap) :
    2 ≤ row.1.toList.length ∧ ∀ c ∈ row.1.toList, isKeyChar c = true :=
  (isKeyWord_of_mem (List.mem_map_of_mem h)).imp And.left id

lemma length_row {row : String × BitVec 32} (h : row ∈ keyNameMap) : row.1.toList.length ≤ 20 :=
  (isKeyWord_of_mem (List.mem_map_of_mem (f := fun row : String × BitVec 32 => row.1.toList) h)).1.2

lemma toLower_ne_backslash {c : Char} (h : isKeyChar c = true) : c.toLower ≠ '\\'.toLower := by
  intro heq
  have hc := isKeyChar_iff.mp h
  have hlower := congrArg Char.toNat heq
  rw [toNat_toLower, toNat_toLower] at hlower
  simp only [Char.reduceToNat] at hlower
  split_ifs at hlower <;> omega

lemma byName_escaped (s : Name) : byName keyNameMap ('\\' :: s) = none := by
  apply byName_head
  intro row hrow d hd
  exact toLower_ne_backslash ((isKeyWord_row hrow).2 d (List.mem_of_mem_head? hd))

lemma byName_nil : byName keyNameMap [] = none := by
  apply byName_eq_none
  intro row hrow heq
  have hlength := congrArg List.length heq
  rw [caseless, List.length_map] at hlength
  have htwo := (isKeyWord_row hrow).1
  rw [hlength] at htwo
  exact absurd htwo (by decide)

def unnamedKey : Name → Option (BitVec 32)
  | [] => some kKeyNone
  | [c] => if isGraph c then some (BitVec.ofNat 32 c.toNat) else none
  | '\\' :: 'u' :: hex =>
    if hex.length = 4 then
      let (n, rest) := strtol 16 hex
      if cStringEnds rest then some (BitVec.ofInt 32 n) else none
    else none
  | _ => none

lemma parseKey_eq (x : Name) : parseKey x = (byName keyNameMap x).or (unnamedKey x) := by
  rw [parseKey.eq_def]
  cases byName keyNameMap x <;> rfl

lemma parseKey_nil : parseKey [] = some kKeyNone := by
  rw [parseKey_eq, byName_nil]
  rfl

lemma parseKey_escaped (hex : Name) : parseKey ('\\' :: 'u' :: hex) =
    if hex.length = 4 then
      if cStringEnds (strtol 16 hex).2 then some (BitVec.ofInt 32 (strtol 16 hex).1) else none
    else none := by
  rw [parseKey_eq, byName_escaped]
  rfl

lemma alphanum_of_unnamed {key : BitVec 32} (hnone : nameOf keyNameMap key = none)
    (h : 33 ≤ key.toNat ∧ key.toNat < 127) : (Char.ofNat key.toNat).isAlphanum = true := by
  have := List.all_eq_true.mp graph_checked key.toNat (List.mem_range.mpr h.2)
  rw [Bool.or_eq_true, Bool.or_eq_true, decide_eq_true_eq, List.any_eq_true] at this
  rcases this with (hlt | halnum) | ⟨row, hrow, hkey⟩
  · omega
  · exact halnum
  · rw [nameOf, Option.map_eq_none_iff, List.find?_eq_none] at hnone
    exact absurd (decide_eq_true (BitVec.eq_of_toNat_eq (beq_iff_eq.mp hkey))) (hnone row hrow)

lemma toNat_ofNat_of_lt : ∀ n < 127, (Char.ofNat n).toNat = n := by
  decide +kernel

/-- A key that cannot be read again has more than four digits and no name. -/
theorem parseKey_formatKeyName (key : BitVec 32) :
    parseKey (formatKeyName key) = if Printable key then some key else none := by
  rw [formatKeyName]
  cases hname : nameOf keyNameMap key with
  | some name =>
    obtain ⟨row, hrow, rfl, rfl⟩ := row_of_nameOf hname
    have hprint : Printable row.2 := .inl (by rw [hname]; rfl)
    dsimp only
    rw [if_pos hprint]
    unfold parseKey
    rw [byName_row hrow]
  | none =>
    dsimp only
    split_ifs with hgraph hprint hprint
    · have hnat := toNat_ofNat_of_lt key.toNat hgraph.2
      have hvisible : isGraph (Char.ofNat key.toNat) = true := decide_eq_true (by omega)
      unfold parseKey
      rw [byName_char fun row hrow => (isKeyWord_row hrow).1]
      dsimp only
      rw [if_pos hvisible, hnat, BitVec.ofNat_toNat, BitVec.setWidth_eq]
    · exact absurd (.inr (by omega)) hprint
    · have hlt : key.toNat < 16 ^ 4 := by
        rcases hprint with hsome | hlt
        · rw [hname] at hsome
          nomatch hsome
        · exact hlt
      obtain ⟨hne, hchars⟩ := formatHex_chars 4 key.toNat
      have hvalue := digitsValue_formatHex 4 key.toNat
      have hstrtol := strtol_hexDigits hne hchars (by rw [hvalue]; omega)
      rw [hvalue] at hstrtol
      rw [parseKey_escaped, if_pos ((length_formatHex (by decide)).mpr hlt), hstrtol]
      simp [cStringEnds]
    · have hlong : ¬ (formatHex 4 key.toNat).length = 4 :=
        fun h => hprint (.inr ((length_formatHex (by decide)).mp h))
      rw [parseKey_escaped, if_neg hlong]

end Keys

section Modifiers

def NamedMask (mask : BitVec 32) : Prop := mask.toNat < 2 ^ 6

def modifierName (i : ℕ) : Name := (nameOf modifierNameMap (BitVec.twoPow 32 i)).getD []

lemma modifierName_checked : ∀ i < 6, nameOf modifierNameMap (BitVec.twoPow 32 i) = some (modifierName i) ∧
    byName modifierNameMap (modifierName i) = some (BitVec.twoPow 32 i) ∧ modifierName i ≠ [] ∧
    (modifierName i).all isKeyChar = true := by
  decide +kernel

lemma modifierNameMap_checked : ∀ row ∈ modifierNameMap, 2 ≤ row.1.toList.length ∧ row.2.toNat < 2 ^ 6 ∧
    row.1.toList.all isKeyChar = true ∧ ∀ c ∈ row.1.toList.head?, 65 ≤ c.toNat := by
  decide +kernel

def bits (mask : BitVec 32) : List ℕ := (List.range 6).filter fun i => mask.getLsbD i

lemma formatModifiers_eq {mask : BitVec 32} (h : NamedMask mask) : formatModifiers mask = (bits mask).map modifierName := by
  have hrange : List.range kKeyModifierNumBits = List.range 6 ++ List.range' 6 10 := rfl
  have hhigh : (List.range' 6 10).filter (fun i => mask.getLsbD i) = [] := by
    apply List.filter_eq_nil_iff.mpr
    intro i hi
    have hle : 6 ≤ i := (List.mem_range'_1.mp hi).1
    rw [BitVec.getLsbD, Nat.testBit_lt_two_pow (h.trans_le (Nat.pow_le_pow_right (by decide) hle))]
    exact Bool.false_ne_true
  rw [formatModifiers, hrange, List.filter_append, hhigh, List.append_nil, ← bits, ← List.filterMap_eq_map]
  apply List.filterMap_congr
  intro i hi
  exact (modifierName_checked i (List.mem_range.mp (List.mem_filter.mp hi).1)).1

def addBits (mask : BitVec 32) (is : List ℕ) : BitVec 32 := is.foldl (fun m i => m ||| BitVec.twoPow 32 i) mask

lemma getLsbD_addBits {is : List ℕ} (mask : BitVec 32) {j : ℕ} (hj : j < 32) :
    (addBits mask is).getLsbD j = (mask.getLsbD j || decide (j ∈ is)) := by
  induction is generalizing mask with
  | nil => simp [addBits]
  | cons i is ih =>
    rw [addBits, List.foldl_cons, ← addBits, ih]
    have hbit : (decide (i < 32) && decide (i = j)) = decide (j = i) := by
      rw [← Bool.decide_and, decide_eq_decide]
      omega
    simp only [BitVec.getLsbD_or, BitVec.getLsbD_twoPow, hbit, List.mem_cons, Bool.decide_or, Bool.or_assoc]

lemma addBits_bits {mask : BitVec 32} (h : NamedMask mask) : addBits 0 (bits mask) = mask := by
  apply BitVec.eq_of_getLsbD_eq
  intro j hj
  have hzero : (0 : BitVec 32).getLsbD j = false := BitVec.getLsbD_zero
  rw [getLsbD_addBits 0 hj, hzero, Bool.false_or]
  rcases Nat.lt_or_ge j 6 with hlt | hge
  · rw [Bool.eq_iff_iff, decide_eq_true_iff, bits, List.mem_filter, List.mem_range, and_iff_right hlt]
  · rw [BitVec.getLsbD, Nat.testBit_lt_two_pow (h.trans_le (Nat.pow_le_pow_right (by decide) hge))]
    apply decide_eq_false
    intro hmem
    exact absurd (List.mem_range.mp (List.mem_filter.mp hmem).1) (not_lt.mpr hge)

def isPartChar (c : Char) : Bool := isKeyChar c || c == '\\'

lemma isPartChar_iff {c : Char} (h : isPartChar c = true) : isGraph c = true ∧ isBlank c = false ∧
    endsModifier c = false := by
  rw [isPartChar, Bool.or_eq_true, isKeyChar_iff, beq_iff_eq, ← Char.toNat_inj] at h
  simp only [Char.reduceToNat] at h
  have hgraph : isGraph c = true := decide_eq_true (by omega)
  have hne {d : Char} (hd : d.toNat < 48) : c ≠ d := by
    rintro rfl
    omega
  have hblank : isBlank c = false := by
    simp [isBlank, hne (d := ' ') (by decide), hne (d := '\t') (by decide)]
  refine ⟨hgraph, hblank, ?_⟩
  simp [endsModifier, hblank, hne (d := '+') (by decide), hne (d := ')') (by decide)]

def takeBehind (fuel : ℕ) (mask : BitVec 32) : Name → Option (BitVec 32 × Name)
  | [] => some (mask, [])
  | c :: rest => if c = '+' then takeModifiers fuel mask rest else none

section Turns

variable {word : Name} (hne : word ≠ []) (hword : ∀ c ∈ word, isPartChar c = true) (fuel : ℕ) (mask : BitVec 32)

include hne hword

lemma takeModifiers_word {rest : Name} (hrest : ∀ c ∈ rest.head?, c = '+') :
    takeModifiers (fuel + 1) mask (word ++ rest) =
      match byName modifierNameMap word with
      | none => some (mask, trim (word ++ rest))
      | some modifier =>
        if mask &&& modifier ≠ 0 then none else takeBehind fuel (mask ||| modifier) rest := by
  have hin : ∀ c ∈ word, (!endsModifier c) = true := fun c hc => by simp [(isPartChar_iff (hword c hc)).2.2]
  have hend : ∀ c ∈ rest.head?, (!endsModifier c) = false := by
    intro c hc
    rw [hrest c hc]
    rfl
  have hskip : (word ++ rest).dropWhile isBlank = word ++ rest := by
    obtain ⟨c, t, rfl⟩ := List.exists_cons_of_ne_nil hne
    apply dropWhile_head
    rintro d ⟨⟩
    exact (isPartChar_iff (hword c List.mem_cons_self)).2.1
  have hplus : rest.dropWhile isBlank = rest := by
    apply dropWhile_head
    intro c hc
    rw [hrest c hc]
    rfl
  rw [takeModifiers]
  dsimp only
  rw [hskip, if_neg (by simp [hne]), takeWhile_word hin hend, dropWhile_word hin hend, hplus, if_neg hne]
  cases rest with
  | nil => rfl
  | cons c rest => rfl

lemma takeModifiers_plus {modifier : BitVec 32} (hby : byName modifierNameMap word = some modifier)
    (hfree : mask &&& modifier = 0) (rest : Name) :
    takeModifiers (fuel + 1) mask (word ++ '+' :: rest) = takeModifiers fuel (mask ||| modifier) rest := by
  rw [takeModifiers_word hne hword fuel mask (by rintro c ⟨⟩; rfl), hby]
  dsimp only
  rw [if_neg (not_not.mpr hfree), takeBehind, if_pos rfl]

lemma takeModifiers_last {modifier : BitVec 32} (hby : byName modifierNameMap word = some modifier) :
    takeModifiers (fuel + 1) mask word = if mask &&& modifier ≠ 0 then none else some (mask ||| modifier, []) := by
  have hturn : takeModifiers (fuel + 1) mask (word ++ []) = _ := takeModifiers_word hne hword fuel mask (by simp)
  rw [List.append_nil, hby] at hturn
  exact hturn

lemma takeModifiers_other (hby : byName modifierNameMap word = none) :
    takeModifiers (fuel + 1) mask word = some (mask, word) := by
  have hturn : takeModifiers (fuel + 1) mask (word ++ []) = _ := takeModifiers_word hne hword fuel mask (by simp)
  rw [List.append_nil, hby] at hturn
  rw [hturn, trim_eq]
  · intro c hc
    exact (isPartChar_iff (hword c (List.mem_of_mem_head? hc))).2.1
  · intro c hc
    exact (isPartChar_iff (hword c (List.mem_of_mem_getLast? hc))).2.1

end Turns

def modifiersText (is : List ℕ) : Name := is.flatMap fun i => modifierName i ++ ['+']

lemma modifierName_parts {i : ℕ} (h : i < 6) : modifierName i ≠ [] ∧ ∀ c ∈ modifierName i, isPartChar c = true := by
  obtain ⟨-, -, hne, hchars⟩ := modifierName_checked i h
  refine ⟨hne, fun c hc => ?_⟩
  rw [isPartChar, List.all_eq_true.mp hchars c hc, Bool.true_or]

lemma takeModifiers_text {is : List ℕ} (hlt : ∀ i ∈ is, i < 6) (hnodup : is.Nodup) {mask : BitVec 32}
    (hfree : ∀ i ∈ is, mask.getLsbD i = false) (fuel : ℕ) (rest : Name) :
    takeModifiers (fuel + is.length) mask (modifiersText is ++ rest) = takeModifiers fuel (addBits mask is) rest := by
  induction is generalizing mask with
  | nil => rfl
  | cons i is ih =>
    obtain ⟨hi, hrest⟩ := List.nodup_cons.mp hnodup
    have hi6 := hlt i List.mem_cons_self
    obtain ⟨hne, hparts⟩ := modifierName_parts hi6
    have htext : modifiersText (i :: is) ++ rest = modifierName i ++ '+' :: (modifiersText is ++ rest) := by
      simp [modifiersText]
    have hzero : mask &&& BitVec.twoPow 32 i = 0 := by
      rw [BitVec.and_twoPow, hfree i List.mem_cons_self]
      rfl
    rw [htext, List.length_cons, ← Nat.add_assoc, takeModifiers_plus hne hparts _ _ (modifierName_checked i hi6).2.1 hzero]
    apply ih (fun j hj => hlt j (List.mem_cons_of_mem i hj)) hrest
    intro j hj
    have hij : j ≠ i := fun h => hi (h ▸ hj)
    have hj6 := hlt j (List.mem_cons_of_mem i hj)
    rw [BitVec.getLsbD_or, hfree j (List.mem_cons_of_mem i hj), BitVec.getLsbD_twoPow, Bool.false_or, Bool.and_eq_false_iff]
    exact .inr (decide_eq_false hij.symm)

lemma bits_lt {mask : BitVec 32} : ∀ i ∈ bits mask, i < 6 := fun _ hi => List.mem_range.mp (List.mem_filter.mp hi).1

lemma bits_nodup (mask : BitVec 32) : (bits mask).Nodup := List.nodup_range.filter _

lemma length_modifiersText (is : List ℕ) : is.length ≤ (modifiersText is).length := by
  induction is with
  | nil => exact le_rfl
  | cons i is ih =>
    rw [modifiersText, List.flatMap_cons, ← modifiersText]
    simp only [List.length_cons, List.length_append, List.length_nil]
    omega

lemma parseModifiers_text {is : List ℕ} (hlt : ∀ i ∈ is, i < 6) (hnodup : is.Nodup) (rest : Name) :
    ∃ fuel, parseModifiers (modifiersText is ++ rest) = takeModifiers (fuel + 1) (addBits 0 is) rest := by
  have hlength := length_modifiersText is
  have hzero : ∀ i ∈ is, (0 : BitVec 32).getLsbD i = false := fun i _ => BitVec.getLsbD_zero
  refine ⟨(modifiersText is ++ rest).length - is.length, ?_⟩
  rw [← takeModifiers_text hlt hnodup hzero, parseModifiers]
  congr 1
  rw [List.length_append]
  omega

end Modifiers

section Keystrokes

variable {key mask : BitVec 32}

lemma formatKeyName_parts (key : BitVec 32) : formatKeyName key ≠ [] ∧ ∀ c ∈ formatKeyName key, isPartChar c = true := by
  have hkey {c : Char} (h : isKeyChar c = true) : isPartChar c = true := by
    rw [isPartChar, h, Bool.true_or]
  rw [formatKeyName]
  cases hname : nameOf keyNameMap key with
  | some name =>
    obtain ⟨row, hrow, -, rfl⟩ := row_of_nameOf hname
    obtain ⟨hlength, hchars⟩ := isKeyWord_row hrow
    have hpos : 0 < row.1.toList.length := by omega
    exact ⟨List.ne_nil_of_length_pos hpos, fun c hc => hkey (hchars c hc)⟩
  | none =>
    dsimp only
    split_ifs with hgraph
    · refine ⟨List.cons_ne_nil _ _, ?_⟩
      intro c hc
      rw [List.mem_singleton.mp hc]
      apply hkey
      rw [isKeyChar, alphanum_of_unnamed hname hgraph, Bool.true_or]
    · refine ⟨List.cons_ne_nil _ _, ?_⟩
      intro c hc
      rcases List.mem_cons.mp hc with rfl | hc
      · rfl
      · rcases List.mem_cons.mp hc with rfl | hc
        · rfl
        · have := isDigitOf_sixteen_iff.mp ((formatHex_chars 4 key.toNat).2 c hc)
          exact hkey (isKeyChar_iff.mpr (by omega))

/-- The name of `AltGr` is also that of a modifier; no other key has such a name. -/
lemma byName_formatKeyName (hkey : key ≠ kKeyAltGr) : byName modifierNameMap (formatKeyName key) = none := by
  rw [formatKeyName]
  cases hname : nameOf keyNameMap key with
  | some name =>
    obtain ⟨row, hrow, hid, rfl⟩ := row_of_nameOf hname
    refine not_modifier_of_mem (List.mem_map_of_mem hrow) fun heq => hkey ?_
    have haltGr : ("AltGr", kKeyAltGr) ∈ keyNameMap := List.mem_cons_self
    rw [← hid, keyNames_unique hrow haltGr (congrArg caseless heq)]
  | none =>
    dsimp only
    split_ifs
    · exact byName_char (fun row hrow => (modifierNameMap_checked row hrow).1) _
    · apply byName_head
      intro row hrow d hd
      have hchars := List.all_eq_true.mp (modifierNameMap_checked row hrow).2.2.1
      exact toLower_ne_backslash (hchars d (List.mem_of_mem_head? hd))

lemma formatKey_eq (hmask : NamedMask mask) (key : BitVec 32) : formatKey key mask =
    if key ≠ kKeyNone then modifiersText (bits mask) ++ formatKeyName key else (modifiersText (bits mask)).dropLast := by
  rw [formatKey, formatModifiers_eq hmask, List.flatMap_map]
  rfl

lemma length_modifiersText_le {is : List ℕ} (h : ∀ i ∈ is, i < 6) : (modifiersText is).length ≤ 8 * is.length := by
  have hname : ∀ i < 6, (modifierName i).length ≤ 7 := by decide
  induction is with
  | nil => exact le_rfl
  | cons i is ih =>
    have hi := hname i (h i List.mem_cons_self)
    have hrest := ih fun j hj => h j (List.mem_cons_of_mem i hj)
    rw [modifiersText, List.flatMap_cons, ← modifiersText, List.length_append, List.length_append, List.length_singleton,
      List.length_cons]
    omega

lemma length_formatKeyName_le (key : BitVec 32) : (formatKeyName key).length ≤ 20 := by
  rw [formatKeyName]
  cases hname : nameOf keyNameMap key with
  | some name =>
    obtain ⟨row, hrow, -, rfl⟩ := row_of_nameOf hname
    exact length_row hrow
  | none =>
    have hdigits : (Nat.toDigits 16 key.toNat).length ≤ 8 :=
      (Nat.length_toDigits_le_iff (by decide) (by decide)).mpr key.isLt
    dsimp only
    split_ifs
    · exact Nat.le_add_left 1 19
    · rw [formatHex, List.length_cons, List.length_cons, List.length_leftpad]
      omega

lemma length_bits_le (mask : BitVec 32) : (bits mask).length ≤ 6 := List.length_filter_le _ _

lemma length_formatKey_le (hmask : NamedMask mask) (key : BitVec 32) : (formatKey key mask).length ≤ 68 := by
  have hmodifiers := length_modifiersText_le (@bits_lt mask)
  have hbits := length_bits_le mask
  have hkey := length_formatKeyName_le key
  rw [formatKey_eq hmask]
  split_ifs
  · rw [List.length_append]
    omega
  · rw [List.length_dropLast]
    omega

/-- The key `AltGr` is taken for the modifier. -/
lemma parseModifiers_formatKey (hmask : NamedMask mask) (hkey : key ≠ kKeyNone) : parseModifiers (formatKey key mask) =
    if key = kKeyAltGr then
      if mask &&& keyModifierAltGr ≠ 0 then none else some (mask ||| keyModifierAltGr, [])
    else some (mask, formatKeyName key) := by
  obtain ⟨hne, hparts⟩ := formatKeyName_parts key
  obtain ⟨fuel, hparse⟩ := parseModifiers_text bits_lt (bits_nodup mask) (formatKeyName key)
  rw [formatKey_eq hmask, if_pos hkey, hparse, addBits_bits hmask]
  split_ifs with haltGr hfree
  · have hby : byName modifierNameMap (formatKeyName key) = some keyModifierAltGr := by
      rw [haltGr]
      decide
    rw [takeModifiers_last hne hparts fuel mask hby, if_pos hfree]
  · have hby : byName modifierNameMap (formatKeyName key) = some keyModifierAltGr := by
      rw [haltGr]
      decide
    rw [takeModifiers_last hne hparts fuel mask hby, if_neg hfree]
  · exact takeModifiers_other hne hparts fuel mask (byName_formatKeyName haltGr)

lemma bits_ne_nil (hmask : NamedMask mask) (hne : mask ≠ 0) : bits mask ≠ [] := by
  intro hnil
  have := addBits_bits hmask
  rw [hnil] at this
  exact hne this.symm

lemma modifiersText_concat (is : List ℕ) (i : ℕ) :
    (modifiersText (is ++ [i])).dropLast = modifiersText is ++ modifierName i := by
  have htext : modifiersText (is ++ [i]) = (modifiersText is ++ modifierName i) ++ ['+'] := by
    simp [modifiersText]
  rw [htext, List.dropLast_concat]

lemma parseModifiers_formatMask (hmask : NamedMask mask) (hne : mask ≠ 0) :
    parseModifiers (formatKey kKeyNone mask) = some (mask, []) := by
  obtain ⟨is, i, hbits⟩ := (List.eq_nil_or_concat (bits mask)).resolve_left (bits_ne_nil hmask hne)
  rw [List.concat_eq_append] at hbits
  have hlt : ∀ j ∈ is ++ [i], j < 6 := hbits ▸ bits_lt
  have hnodup : (is ++ [i]).Nodup := hbits ▸ bits_nodup mask
  obtain ⟨hi, hrest⟩ : i ∉ is ∧ is.Nodup := by
    rw [List.nodup_append] at hnodup
    exact ⟨fun hmem => hnodup.2.2 i hmem i List.mem_cons_self rfl, hnodup.1⟩
  have hi6 : i < 6 := hlt i (by simp)
  obtain ⟨hne', hparts⟩ := modifierName_parts hi6
  obtain ⟨fuel, hparse⟩ := parseModifiers_text (fun j hj => hlt j (List.mem_append_left _ hj)) hrest (modifierName i)
  have hfree : addBits 0 is &&& BitVec.twoPow 32 i = 0 := by
    have hbit : (addBits 0 is).getLsbD i = false := by
      rw [getLsbD_addBits 0 (by omega), decide_eq_false hi]
      simp
    rw [BitVec.and_twoPow, hbit]
    rfl
  have hmask' : addBits 0 is ||| BitVec.twoPow 32 i = mask := by
    have := addBits_bits hmask
    rw [hbits, addBits, List.foldl_append] at this
    exact this
  rw [formatKey_eq hmask, if_neg (not_not.mpr rfl), hbits, modifiersText_concat, hparse,
    takeModifiers_last hne' hparts fuel _ (modifierName_checked i hi6).2.1, if_neg (not_not.mpr hfree), hmask']

lemma modifiersText_chars {is : List ℕ} (hlt : ∀ i ∈ is, i < 6) :
    ∀ c ∈ modifiersText is, isPartChar c = true ∨ c = '+' := by
  intro c hc
  obtain ⟨i, hi, hc⟩ := List.mem_flatMap.mp hc
  rcases List.mem_append.mp hc with hc | hc
  · exact .inl ((modifierName_parts (hlt i hi)).2 c hc)
  · exact .inr (List.mem_singleton.mp hc)

lemma formatKey_chars (hmask : NamedMask mask) (key : BitVec 32) :
    ∀ c ∈ formatKey key mask, isPartChar c = true ∨ c = '+' := by
  rw [formatKey_eq hmask]
  split_ifs
  · intro c hc
    rcases List.mem_append.mp hc with hc | hc
    · exact modifiersText_chars bits_lt c hc
    · exact .inl ((formatKeyName_parts key).2 c hc)
  · intro c hc
    exact modifiersText_chars bits_lt c (List.dropLast_subset _ hc)

lemma parseModifiers_digits (hmask : NamedMask mask) (n : ℕ) :
    parseModifiers (modifiersText (bits mask) ++ Nat.toDigits 10 n) = some (mask, Nat.toDigits 10 n) := by
  obtain ⟨fuel, hparse⟩ := parseModifiers_text bits_lt (bits_nodup mask) (Nat.toDigits 10 n)
  have hdigit {c : Char} (hc : c ∈ Nat.toDigits 10 n) : 48 ≤ c.toNat ∧ c.toNat ≤ 57 :=
    of_decide_eq_true (isDigit_toDigits hc)
  have hparts : ∀ c ∈ Nat.toDigits 10 n, isPartChar c = true := by
    intro c hc
    rw [isPartChar, isKeyChar_iff.mpr (.inl (hdigit hc)), Bool.true_or]
  obtain ⟨c, s, hcs, -⟩ := exists_digit n
  have hby : byName modifierNameMap (Nat.toDigits 10 n) = none := by
    have hc := hdigit (hcs ▸ List.mem_cons_self)
    rw [hcs]
    apply byName_head
    intro row hrow d hd heq
    have hd := (modifierNameMap_checked row hrow).2.2.2 d hd
    have hlower := congrArg Char.toNat heq
    rw [toNat_toLower, toNat_toLower] at hlower
    split_ifs at hlower <;> omega
  rw [hparse, addBits_bits hmask, takeModifiers_other Nat.toDigits_ne_nil hparts fuel mask hby]

lemma takeModifiers_named {fuel : ℕ} {mask mask' : BitVec 32} {x rest : Name}
    (h : takeModifiers fuel mask x = some (mask', rest)) (hmask : NamedMask mask) : NamedMask mask' := by
  induction fuel generalizing mask x with
  | zero =>
    obtain ⟨rfl, -⟩ := Prod.mk.inj (Option.some.inj h)
    exact hmask
  | succ fuel ih =>
    rw [takeModifiers] at h
    dsimp only at h
    split_ifs at h
    · obtain ⟨rfl, -⟩ := Prod.mk.inj (Option.some.inj h)
      exact hmask
    · split at h
      · obtain ⟨rfl, -⟩ := Prod.mk.inj (Option.some.inj h)
        exact hmask
      · rename_i modifier hby
        obtain ⟨row, hfind, rfl⟩ := Option.map_eq_some_iff.mp hby
        have hrow := (modifierNameMap_checked row (List.mem_of_find?_eq_some hfind)).2.1
        have hmask' : NamedMask (mask ||| row.2) := by
          rw [NamedMask, BitVec.toNat_or]
          exact Nat.or_lt_two_pow hmask hrow
        split_ifs at h
        split at h
        · obtain ⟨rfl, -⟩ := Prod.mk.inj (Option.some.inj h)
          exact hmask'
        · split_ifs at h
          exact ih h hmask'

end Keystrokes

end InputLeap.KeyNames
