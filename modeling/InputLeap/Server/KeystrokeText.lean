import InputLeap.Server.RuleLines

/-! Which texts of a keystroke come back as they were when the keystroke is printed and read again. An escape may stand
for a number that is printed with more digits, or for the key whose name is that of a modifier. -/

namespace InputLeap

open InputLeap.Lib InputLeap.Lib.Text

namespace KeyNames

def keyPart (text : Name) : Name := ((parseModifiers text).map Prod.snd).getD []

/-- An escape with a number below zero, or with the number of `AltGr`. -/
def StrayEscape (part : Name) : Prop :=
  ∃ hex, part = '\\' :: 'u' :: hex ∧ ((strtol 16 hex).1 < 0 ∨ (strtol 16 hex).1 = kKeyAltGr.toNat)

section Escapes

lemma digitValue_lt {base : ℕ} {c : Char} (h : isDigitOf base c = true) : (digitValue c).getD 0 < base := by
  rw [isDigitOf] at h
  cases hd : digitValue c with
  | none =>
    rw [hd] at h
    cases h
  | some d =>
    rw [hd] at h
    simpa using h

lemma digitsValue_lt {base : ℕ} {s : Name} (h : ∀ c ∈ s, isDigitOf base c = true) :
    digitsValue base s < base ^ s.length := by
  induction s using List.reverseRecOn with
  | nil => simp [digitsValue]
  | append_singleton s c ih =>
    have hs := ih fun d hd => h d (List.mem_append_left _ hd)
    have hc := digitValue_lt (h c (List.mem_append_right _ (List.mem_singleton_self c)))
    rw [digitsValue, List.foldl_append, ← digitsValue, List.length_append, List.length_singleton, pow_succ]
    simp only [List.foldl_cons, List.foldl_nil]
    calc base * digitsValue base s + (digitValue c).getD 0 < base * digitsValue base s + base := by omega
      _ = base * (digitsValue base s + 1) := by ring
      _ ≤ base * base ^ s.length := Nat.mul_le_mul_left _ hs
      _ = base ^ s.length * base := Nat.mul_comm _ _

lemma length_takeSign_le (s : Name) : (takeSign s).2.length ≤ s.length := by
  rw [takeSign.eq_def]
  split
  · simp
  · simp
  · simp

lemma length_dropHexMark_le (s : Name) : (dropHexMark s).length ≤ s.length := by
  rw [dropHexMark.eq_def]
  split
  · split_ifs
    · simp
    · simp
  · simp

lemma natAbs_strtol_lt (s : Name) : (strtol 16 s).1.natAbs < 16 ^ s.length := by
  rw [strtol]
  dsimp only
  rw [if_pos rfl]
  split_ifs with hnone
  · simp
  · generalize ht : dropHexMark (takeSign (s.dropWhile isSpace)).2 = t at *
    have hlength : t.length ≤ s.length := by
      rw [← ht]
      apply (length_dropHexMark_le _).trans
      exact (length_takeSign_le _).trans (List.dropWhile_sublist _).length_le
    have hdigits : digitsValue 16 (t.takeWhile (isDigitOf 16)) < 16 ^ s.length := by
      apply (digitsValue_lt fun c hc => List.all_eq_true.mp List.all_takeWhile c hc).trans_le
      apply Nat.pow_le_pow_right (by decide)
      exact (List.takeWhile_sublist _).length_le.trans hlength
    generalize digitsValue 16 (t.takeWhile (isDigitOf 16)) = n at hdigits
    rw [signed]
    split_ifs <;> omega

end Escapes

section Parts

lemma isKeyChar_of_toLower {c d : Char} (h : c.toLower = d.toLower) (hd : isKeyChar d = true) : isKeyChar c = true := by
  have hlower := congrArg Char.toNat h
  have hchar := isKeyChar_iff.mp hd
  apply isKeyChar_iff.mpr
  rw [toNat_toLower, toNat_toLower] at hlower
  split_ifs at hlower <;> omega

lemma isKeyChar_of_caseless {a b : Name} (h : caseless a = caseless b) (hb : ∀ c ∈ b, isKeyChar c = true) :
    ∀ c ∈ a, isKeyChar c = true := by
  intro c hc
  have hlower : c.toLower ∈ caseless b := h ▸ List.mem_map_of_mem hc
  obtain ⟨d, hd, heq⟩ := List.mem_map.mp hlower
  exact isKeyChar_of_toLower heq.symm (hb d hd)

lemma byName_caseless {table : List (String × BitVec 32)} {a b : Name} (h : caseless a = caseless b) :
    byName table a = byName table b := by
  rw [byName, byName, h]

lemma exists_blanks {x : Name} (h : ∀ c ∈ x.head?, isBlank c = false) :
    ∃ blanks, x = trim x ++ blanks ∧ ∀ c ∈ blanks, isBlank c = true := by
  rw [trim]
  split_ifs with hall
  · exact ⟨[], by simp, by simp⟩
  · refine ⟨x.rtakeWhile isBlank, ?_, fun c hc => List.mem_rtakeWhile_imp hc⟩
    rw [dropWhile_head h, List.rdropWhile_append_rtakeWhile]

lemma not_modifier_of_rest {fuel : ℕ} {mask mask' : BitVec 32} {x s : Name}
    (h : takeModifiers fuel mask x = some (mask', s)) (hs : ∀ c ∈ s, isKeyChar c = true) :
    s = [] ∨ byName modifierNameMap s = none := by
  induction fuel generalizing mask x with
  | zero => exact .inl (Prod.mk.inj (Option.some.inj h)).2.symm
  | succ fuel ih =>
    rw [takeModifiers] at h
    dsimp only at h
    split_ifs at h
    · exact .inl (Prod.mk.inj (Option.some.inj h)).2.symm
    · split at h
      · rename_i hby
        obtain rfl := (Prod.mk.inj (Option.some.inj h)).2
        have hhead : ∀ c ∈ (x.dropWhile isBlank).head?, isBlank c = false := by
          intro c hc
          have hnot := List.head?_dropWhile_not isBlank x
          rw [hc] at hnot
          exact hnot
        obtain ⟨blanks, hx, hblanks⟩ := exists_blanks hhead
        generalize trim (x.dropWhile isBlank) = s at *
        rw [hx, takeWhile_word] at hby
        · exact .inr hby
        · intro c hc
          have hpart : isPartChar c = true := by rw [isPartChar, hs c hc, Bool.true_or]
          rw [(isPartChar_iff hpart).2.2, Bool.not_false]
        · intro c hc
          rw [endsModifier, hblanks c (List.mem_of_mem_head? hc), Bool.true_or, Bool.true_or, Bool.not_true]
      · split_ifs at h
        split at h
        · exact .inl (Prod.mk.inj (Option.some.inj h)).2.symm
        · split_ifs at h
          exact ih h

lemma keyNameMap_checked : (keyNameMap.all fun row =>
    decide (row.2.toNat < 2 ^ 31) && (decide (row.2 ≠ kKeyAltGr) || row.1 == "AltGr")) = true := by
  decide

lemma row_lt {row : String × BitVec 32} (h : row ∈ keyNameMap) : row.2.toNat < 2 ^ 31 := by
  have := List.all_eq_true.mp keyNameMap_checked row h
  rw [Bool.and_eq_true, decide_eq_true_eq] at this
  exact this.1

lemma eq_altGr_of_row {row : String × BitVec 32} (h : row ∈ keyNameMap) (hkey : row.2 = kKeyAltGr) :
    row.1 = "AltGr" := by
  have := List.all_eq_true.mp keyNameMap_checked row h
  rw [Bool.and_eq_true, Bool.or_eq_true, decide_eq_true_eq] at this
  exact beq_iff_eq.mp (this.2.resolve_left (by simp [hkey]))

variable {part : Name} {key : BitVec 32}

lemma named_part (h : byName keyNameMap part = some key)
    (hrest : (∀ c ∈ part, isKeyChar c = true) → part = [] ∨ byName modifierNameMap part = none) :
    key ≠ kKeyAltGr ∧ Printable key := by
  obtain ⟨row, hfind, rfl⟩ := Option.map_eq_some_iff.mp h
  have hrow := List.mem_of_find?_eq_some hfind
  have hfound := List.find?_some hfind
  have hsame : caseless row.1.toList = caseless part := of_decide_eq_true hfound
  constructor
  · intro hkey
    rw [eq_altGr_of_row hrow hkey] at hsame
    have hnone := hrest (isKeyChar_of_caseless hsame.symm (by decide))
    rw [← byName_caseless hsame] at hnone
    rcases hnone with rfl | hnone
    · exact absurd hsame (by decide)
    · exact absurd hnone (by decide)
  · left
    rw [nameOf, Option.isSome_map, List.find?_isSome]
    exact ⟨row, hrow, decide_eq_true rfl⟩

lemma not_printable_of_le (h : 2 ^ 31 ≤ key.toNat) : ¬ Printable key := by
  rintro (hsome | hlt)
  · rw [nameOf, Option.isSome_map, List.find?_isSome] at hsome
    obtain ⟨row, hrow, heq⟩ := hsome
    have hlt := row_lt hrow
    rw [of_decide_eq_true heq] at hlt
    omega
  · omega

lemma escaped_part {n : ℤ} (hn : n.natAbs < 16 ^ 4) :
    BitVec.ofInt 32 n ≠ kKeyAltGr ∧ Printable (BitVec.ofInt 32 n) ↔ ¬ (n < 0 ∨ n = kKeyAltGr.toNat) := by
  have hnat : (BitVec.ofInt 32 n).toNat = (n % 2 ^ 32).toNat := by simp
  by_cases hneg : n < 0
  · refine iff_of_false (fun h => not_printable_of_le ?_ h.2) (not_not.mpr (.inl hneg))
    omega
  · have hprint : Printable (BitVec.ofInt 32 n) := .inr (by omega)
    rw [and_iff_left hprint, not_or, and_iff_right hneg, not_iff_not, ← BitVec.toNat_inj, hnat]
    omega

/-- Which keys that are read can be printed so that they are read again. -/
lemma parsed_part (h : parseKey part = some key)
    (hrest : (∀ c ∈ part, isKeyChar c = true) → part = [] ∨ byName modifierNameMap part = none) :
    key ≠ kKeyAltGr ∧ Printable key ↔ ¬ StrayEscape part := by
  rw [parseKey_eq] at h
  cases hby : byName keyNameMap part with
  | some named =>
    rw [hby, Option.some_or, Option.some.injEq] at h
    subst h
    refine iff_of_true (named_part hby hrest) ?_
    rintro ⟨hex, rfl, -⟩
    rw [byName_escaped] at hby
    cases hby
  | none =>
    rw [hby, Option.none_or] at h
    rw [unnamedKey.eq_def] at h
    split at h
    · cases h
      refine iff_of_true ⟨by decide, .inr (by decide)⟩ ?_
      rintro ⟨hex, hpart, -⟩
      cases hpart
    · rename_i c
      split_ifs at h with hgraph
      cases h
      have hlt : c.toNat ≤ 126 := (of_decide_eq_true hgraph).2
      have hnat : (BitVec.ofNat 32 c.toNat).toNat = c.toNat := by
        rw [BitVec.toNat_ofNat, Nat.mod_eq_of_lt (by omega)]
      refine iff_of_true ⟨?_, .inr (by omega)⟩ ?_
      · intro hkey
        rw [hkey] at hnat
        exact absurd hlt (by rw [← hnat]; decide)
      · rintro ⟨hex, hpart, -⟩
        simp at hpart
    · rename_i hex
      change (if hex.length = 4 then if cStringEnds (strtol 16 hex).2 then some (BitVec.ofInt 32 (strtol 16 hex).1)
        else none else none) = some key at h
      have hbound := natAbs_strtol_lt hex
      split_ifs at h with hlength
      rw [hlength] at hbound
      rw [← Option.some.inj h, escaped_part hbound, StrayEscape, not_iff_not]
      constructor
      · exact fun hstray => ⟨hex, rfl, hstray⟩
      · rintro ⟨hex', hpart, hstray⟩
        obtain rfl : hex = hex' := by simpa using hpart
        exact hstray
    · cases h

end Parts

end KeyNames

section Keystroke

variable {text : Name} {key : KeyID} {mask : KeyModifierMask}

lemma reread_iff (h : parseKeystroke text = .ok (key, mask)) :
    parseKeystroke (KeyNames.formatKey key mask) = .ok (key, mask) ↔
      key ≠ KeyNames.kKeyAltGr ∧ KeyNames.Printable key := by
  rw [← rereadKey_eq_some_iff key mask, ← parseKeystroke_format (parseKeystroke_valid h)]
  cases parseKeystroke (KeyNames.formatKey key mask) with
  | error e => simp [Except.toOption]
  | ok k => simp [Except.toOption]

/-- A keystroke that was read is printed as a text that is read as the same keystroke, just if its key was not escaped
with a number below zero or with that of `AltGr`. -/
theorem parseKeystroke_formatKey_iff (h : parseKeystroke text = .ok (key, mask)) :
    parseKeystroke (KeyNames.formatKey key mask) = .ok (key, mask) ↔
      ¬ KeyNames.StrayEscape (KeyNames.keyPart text) := by
  rw [reread_iff h]
  rw [parseKeystroke] at h
  split at h
  · cases h
  · rename_i mask' part hmodifiers
    split at h
    · cases h
    · rename_i key' hkey
      split_ifs at h
      cases h
      rw [KeyNames.keyPart, hmodifiers]
      exact KeyNames.parsed_part hkey (KeyNames.not_modifier_of_rest hmodifiers)

lemma parseKeystroke_of {part : Name} (hmodifiers : KeyNames.parseModifiers text = some (mask, part))
    (hkey : KeyNames.parseKey part = some key) (hne : ¬ (key = KeyNames.kKeyNone ∧ mask = 0)) :
    parseKeystroke text = .ok (key, mask) := by
  rw [parseKeystroke, hmodifiers]
  dsimp only
  rw [hkey]
  dsimp only
  rw [if_neg hne]

end Keystroke

section Escaped

variable {hex : Name} (hchars : ∀ c ∈ hex, KeyNames.isPartChar c = true)

include hchars

lemma parseModifiers_escape : KeyNames.parseModifiers ('\\' :: 'u' :: hex) = some (0, '\\' :: 'u' :: hex) := by
  apply KeyNames.takeModifiers_other (by simp)
  · intro c hc
    rcases List.mem_cons.mp hc with rfl | hc
    · rfl
    · rcases List.mem_cons.mp hc with rfl | hc
      · rfl
      · exact hchars c hc
  · apply KeyNames.byName_head
    decide

/-- An escape alone, with four characters and a number other than zero. -/
lemma parseKeystroke_escape (hlength : hex.length = 4) (hends : KeyNames.cStringEnds (strtol 16 hex).2 = true)
    (hne : BitVec.ofInt 32 (strtol 16 hex).1 ≠ KeyNames.kKeyNone) :
    parseKeystroke ('\\' :: 'u' :: hex) = .ok (BitVec.ofInt 32 (strtol 16 hex).1, 0) := by
  apply parseKeystroke_of (parseModifiers_escape hchars) _ fun h => hne h.1
  rw [KeyNames.parseKey_escaped, if_pos hlength, if_pos hends]

end Escaped

theorem escaped_altGr_lost : ¬ (∀ (text : Name) (key : KeyID) (mask : KeyModifierMask),
    parseKeystroke text = .ok (key, mask) →
      parseKeystroke (KeyNames.formatKey key mask) = .ok (key, mask)) := by
  intro hall
  have hchars : ∀ c ∈ "EF7E".toList, KeyNames.isPartChar c = true := by decide
  have hread := parseKeystroke_escape hchars rfl rfl (by decide)
  exact ((reread_iff hread).mp (hall _ _ _ hread)).1 rfl

theorem escaped_letter_reread : parseKeystroke (KeyNames.formatKey 0x0041 0) = .ok (0x0041, 0) := by
  have hchars : ∀ c ∈ "0041".toList, KeyNames.isPartChar c = true := by decide
  have hread := parseKeystroke_escape hchars rfl rfl (by decide)
  apply (parseKeystroke_formatKey_iff hread).mpr
  rintro ⟨hex, hpart, hstray⟩
  obtain rfl : "0041".toList = hex := by
    rw [KeyNames.keyPart, parseModifiers_escape hchars] at hpart
    exact (List.cons.inj (List.cons.inj hpart).2).2
  exact absurd hstray (by decide)

end InputLeap
