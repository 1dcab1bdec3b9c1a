import InputLeap.Server.ConfigLines

/-! Options as they are written and read again: the value of each kind of option, and the line with its name. -/

namespace InputLeap

open InputLeap.Lib InputLeap.Lib.Text

def OptionKind.Valid : OptionKind → OptionValue → Prop
  | boolean, v => v = 0 ∨ v = 1
  | int, _ => True
  | modifierKey, v => v ∈ [kKeyModifierIDShift, kKeyModifierIDControl, kKeyModifierIDAlt, kKeyModifierIDAltGr,
      kKeyModifierIDMeta, kKeyModifierIDSuper, kKeyModifierIDNull]
  | corners, v => v.toNat < 16

section Values

lemma mem_of_parseWord {words : List (String × OptionValue)} {error : String} {arg : Name} {v : OptionValue}
    (h : parseWord words error arg = .ok v) : v ∈ words.map Prod.snd := by
  rw [parseWord] at h
  split at h
  · rename_i e hfind
    cases h
    exact List.mem_map_of_mem (List.mem_of_find?_eq_some hfind)
  · nomatch h

lemma corner_lt {arg : Name} {v : OptionValue} (h : parseCorner arg = .ok v) : v.toNat < 16 := by
  have hwords : cornerWords.all (fun e => decide (e.2.toNat < 16)) = true := by decide
  obtain ⟨e, he, rfl⟩ := List.mem_map.mp (mem_of_parseWord h)
  exact of_decide_eq_true (List.all_eq_true.mp hwords e he)

lemma changeCorners_lt {fuel : ℕ} {corners v : OptionValue} {args : Name} (hcorners : corners.toNat < 16)
    (h : changeCorners fuel corners args = .ok v) : v.toNat < 16 := by
  induction fuel generalizing corners args with
  | zero =>
    cases h
    exact hcorners
  | succ fuel ih =>
    rw [changeCorners] at h
    split at h
    · cases h
      exact hcorners
    · rename_i op rest _
      dsimp only at h
      by_cases hop : op ≠ '-' ∧ op ≠ '+'
      · rw [if_pos hop] at h
        nomatch h
      rw [if_neg hop] at h
      by_cases hargs : rest.dropWhile isBlank = []
      · rw [if_pos hargs] at h
        nomatch h
      rw [if_neg hargs] at h
      obtain ⟨corner, hcorner, h⟩ := bind_eq_ok.mp h
      apply ih _ h
      split_ifs
      · rw [BitVec.toNat_or]
        exact Nat.or_lt_two_pow (n := 4) hcorners (corner_lt hcorner)
      · rw [BitVec.toNat_and]
        exact Nat.and_le_left.trans_lt hcorners

lemma parse_valid {kind : OptionKind} {value : Name} {v : OptionValue} (h : kind.parse value = .ok v) :
    kind.Valid v := by
  cases kind with
  | boolean =>
    rcases List.mem_cons.mp (mem_of_parseWord h) with hv | hv
    · exact .inr hv
    · exact .inl (List.mem_singleton.mp hv)
  | int => trivial
  | modifierKey => exact mem_of_parseWord h
  | corners =>
    rw [OptionKind.parse, parseCorners] at h
    split_ifs at h
    obtain ⟨corner, hcorner, h⟩ := bind_eq_ok.mp h
    exact changeCorners_lt (corner_lt hcorner) h

lemma parseBoolean_format {v : OptionValue} (h : v = 0 ∨ v = 1) : parseBoolean (formatBoolean v) = .ok v := by
  rcases h with rfl | rfl
  · rfl
  · rfl

lemma parseInt_format (v : OptionValue) : parseInt (formatInt v.toInt) = .ok v := by
  have hstrtol : strtol 10 (formatInt v.toInt ++ []) = (v.toInt, []) := by
    apply strtol_formatInt
    · have := BitVec.toInt_lt (x := v)
      have := BitVec.le_toInt (x := v)
      omega
    · simp
  rw [List.append_nil] at hstrtol
  rw [parseInt, hstrtol]
  dsimp only
  rw [if_neg (not_not.mpr rfl), BitVec.ofInt_toInt, if_neg (not_not.mpr rfl)]

lemma parseModifierKey_format {v : OptionValue} (h : OptionKind.modifierKey.Valid v) :
    parseModifierKey (formatModifierKey v) = .ok v := by
  simp only [OptionKind.Valid, List.mem_cons, List.not_mem_nil, or_false] at h
  rcases h with rfl | rfl | rfl | rfl | rfl | rfl | rfl
  all_goals rfl

lemma changeCorners_add {fuel : ℕ} {corners corner : OptionValue} {name rest : Name}
    (hname : parseCorner name = .ok corner) (hchars : ∀ c ∈ name, isBlank c = false) (hne : name ≠ [])
    (hrest : ∀ c ∈ rest.head?, isBlank c = true) :
    changeCorners (fuel + 1) corners (' ' :: '+' :: name ++ rest) = changeCorners fuel (corners ||| corner) rest := by
  have hblank : (' ' :: '+' :: name ++ rest).dropWhile isBlank = '+' :: (name ++ rest) := rfl
  have hword : ∀ c ∈ name, (!isBlank c) = true := fun c hc => by simp [hchars c hc]
  have hend : ∀ c ∈ rest.head?, (!isBlank c) = false := fun c hc => by simp [hrest c hc]
  have hskip : (name ++ rest).dropWhile isBlank = name ++ rest := by
    apply dropWhile_head
    obtain ⟨c, t, rfl⟩ := List.exists_cons_of_ne_nil hne
    intro d hd
    obtain rfl := Option.some.inj hd
    exact hchars c List.mem_cons_self
  rw [changeCorners, hblank]
  dsimp only
  rw [if_neg (by simp), hskip, if_neg (by simp [hne]), takeWhile_word hword hend, dropWhile_word hword hend, hname]
  rfl

lemma parseCorner_names : parseCorner "none".toList = .ok kNoCornerMask ∧
    parseCorner "top-left".toList = .ok kTopLeftMask ∧ parseCorner "top-right".toList = .ok kTopRightMask ∧
    parseCorner "bottom-left".toList = .ok kBottomLeftMask ∧
    parseCorner "bottom-right".toList = .ok kBottomRightMask := by
  refine ⟨?_, ?_, ?_, ?_, ?_⟩
  all_goals rfl

lemma cornersText_head (v : OptionValue) (rows : List (OptionValue × String)) :
    ∀ c ∈ (cornersText v rows).head?, isBlank c = true := by
  induction rows with
  | nil => simp [cornersText]
  | cons row rows ih =>
    rw [cornersText, List.flatMap_cons, cornerText]
    split_ifs
    · rintro c ⟨⟩
      rfl
    · exact ih

lemma changeCorners_text {v : OptionValue} {rows : List (OptionValue × String)}
    (hnames : ∀ row ∈ rows, parseCorner row.2.toList = .ok row.1 ∧ (∀ c ∈ row.2.toList, isBlank c = false) ∧
      row.2.toList ≠ [])
    (hbits : ∀ row ∈ rows, v &&& row.1 = 0 ∨ v &&& row.1 = row.1) {fuel : ℕ} (hfuel : rows.length ≤ fuel)
    (corners : OptionValue) : changeCorners fuel corners (cornersText v rows) =
      .ok (rows.foldl (fun corners row => corners ||| (v &&& row.1)) corners) := by
  induction rows generalizing fuel corners with
  | nil => cases fuel <;> rfl
  | cons row rows ih =>
    obtain ⟨fuel, rfl⟩ := Nat.exists_eq_add_of_lt (Nat.lt_of_lt_of_le (Nat.lt_succ_self _) hfuel)
    obtain ⟨hname, hchars, hne⟩ := hnames row List.mem_cons_self
    have hbit := hbits row List.mem_cons_self
    have ih := fun {n : ℕ} => @ih (fun r hr => hnames r (List.mem_cons_of_mem row hr))
      (fun r hr => hbits r (List.mem_cons_of_mem row hr)) n
    rw [cornersText, List.flatMap_cons, cornerText, List.foldl_cons, ← cornersText]
    split_ifs with h
    · rw [changeCorners_add hname hchars hne (cornersText_head v rows), ih (Nat.le_add_right _ _), hbit.resolve_left h]
    · rw [List.nil_append, ih (by omega), not_not.mp h]
      exact congrArg (fun corners => Except.ok (rows.foldl _ corners)) BitVec.or_zero.symm

lemma and_twoPow_cases (v : OptionValue) (i : ℕ) :
    v &&& BitVec.twoPow 32 i = 0 ∨ v &&& BitVec.twoPow 32 i = BitVec.twoPow 32 i := by
  rw [BitVec.and_twoPow]
  split_ifs
  · exact .inr rfl
  · exact .inl rfl

lemma corners_or {v : OptionValue} (h : v.toNat < 16) :
    cornerRows.foldl (fun corners row => corners ||| (v &&& row.1)) kNoCornerMask = v := by
  have hmask : (15#32 : OptionValue) = kTopLeftMask ||| kTopRightMask ||| kBottomLeftMask ||| kBottomRightMask := rfl
  have hall : v &&& 15#32 = v := by
    apply BitVec.eq_of_toNat_eq
    rw [BitVec.toNat_and]
    exact Nat.and_two_pow_sub_one_of_lt_two_pow (n := 4) h
  rw [hmask, BitVec.and_or_distrib_left, BitVec.and_or_distrib_left, BitVec.and_or_distrib_left] at hall
  exact (congrArg (· ||| _ ||| _ ||| _) BitVec.zero_or).trans hall

lemma parseCorners_format {v : OptionValue} (h : v.toNat < 16) : parseCorners (formatCorners v) = .ok v := by
  obtain ⟨hnone, htl, htr, hbl, hbr⟩ := parseCorner_names
  have hnames : ∀ row ∈ cornerRows, parseCorner row.2.toList = .ok row.1 ∧ (∀ c ∈ row.2.toList, isBlank c = false) ∧
      row.2.toList ≠ [] := by
    intro row hrow
    simp only [cornerRows, List.mem_cons, List.not_mem_nil, or_false] at hrow
    rcases hrow with rfl | rfl | rfl | rfl
    · exact ⟨htl, by decide, by decide⟩
    · exact ⟨htr, by decide, by decide⟩
    · exact ⟨hbl, by decide, by decide⟩
    · exact ⟨hbr, by decide, by decide⟩
  have hbits : ∀ row ∈ cornerRows, v &&& row.1 = 0 ∨ v &&& row.1 = row.1 := by
    intro row hrow
    simp only [cornerRows, List.mem_cons, List.not_mem_nil, or_false] at hrow
    rcases hrow with rfl | rfl | rfl | rfl
    · exact and_twoPow_cases v 0
    · exact and_twoPow_cases v 1
    · exact and_twoPow_cases v 2
    · exact and_twoPow_cases v 3
  have hblank := cornersText_head v cornerRows
  have hword : ∀ c ∈ "none".toList, (!isBlank c) = true := by decide
  have hend : ∀ c ∈ (cornersText v cornerRows).head?, (!isBlank c) = false := fun c hc => by simp [hblank c hc]
  have hskip : ("none".toList ++ cornersText v cornerRows).dropWhile isBlank = "none".toList ++ cornersText v cornerRows :=
    dropWhile_head (by rintro c ⟨⟩; rfl)
  have hfuel : cornerRows.length ≤ ("none".toList ++ cornersText v cornerRows).length := by
    rw [List.length_append]
    exact Nat.le_add_right 4 _
  change parseCorners ("none".toList ++ cornersText v cornerRows) = _
  rw [parseCorners, hskip, if_neg (by simp), takeWhile_word hword hend, dropWhile_word hword hend, hnone]
  exact (changeCorners_text hnames hbits hfuel kNoCornerMask).trans (congrArg _ (corners_or h))

lemma parse_format {kind : OptionKind} {v : OptionValue} (h : kind.Valid v) : kind.parse (kind.format v) = .ok v := by
  cases kind with
  | boolean => exact parseBoolean_format h
  | int => exact parseInt_format v
  | modifierKey => exact parseModifierKey_format h
  | corners => exact parseCorners_format h

end Values

section Texts

/-- Text within a line: no character that ends the line, and none at its own ends that is blank or a colon. -/
structure LineText (s : Name) : Prop where
  nonempty : s ≠ []
  chars : ∀ c ∈ s, isLineChar c = true
  first : ∀ c ∈ s.head?, isGraph c = true
  last : ∀ c ∈ s.getLast?, isGraph c = true ∧ c ≠ ':'

variable {s t : Name}

lemma LineText.append (hs : LineText s) (ht : LineText t) {sep : Name} (hsep : ∀ c ∈ sep, isLineChar c = true) :
    LineText (s ++ sep ++ t) := by
  refine ⟨?_, ?_, ?_, ?_⟩
  · simp [hs.nonempty]
  · intro c hc
    rcases List.mem_append.mp hc with hc | hc
    · exact (List.mem_append.mp hc).elim (hs.chars c) (hsep c)
    · exact ht.chars c hc
  · obtain ⟨c, u, rfl⟩ := List.exists_cons_of_ne_nil hs.nonempty
    exact hs.first
  · obtain ⟨u, c, rfl⟩ := List.eq_nil_or_concat t |>.resolve_left ht.nonempty
    simpa [← List.append_assoc] using ht.last

lemma LineText.clean (hs : LineText s) : CleanLine s := by
  obtain ⟨c, hc⟩ := Option.isSome_iff_exists.mp (List.isSome_head?.mpr hs.nonempty)
  obtain ⟨d, hd⟩ := Option.isSome_iff_exists.mp (List.getLast?_isSome.mpr hs.nonempty)
  exact ⟨hs.chars, ⟨c, hc, isBlank_of_isGraph (hs.first c hc)⟩, ⟨d, hd, isLineEnd_of_isGraph (hs.last d hd).1⟩⟩

lemma LineText.last_ne (hs : LineText s) : s.getLast? ≠ some ':' := fun h => (hs.last ':' h).2 rfl

lemma lineText_of_word (hne : s ≠ []) (h : ∀ c ∈ s, isGraph c = true ∧ c ≠ ':' ∧ c ≠ '#') : LineText s := by
  refine ⟨hne, fun c hc => isLineChar_of_isGraph (h c hc).1 (h c hc).2.2, ?_, ?_⟩
  · intro c hc
    exact (h c (List.mem_of_mem_head? hc)).1
  · intro c hc
    have := h c (List.mem_of_mem_getLast? hc)
    exact ⟨this.1, this.2.1⟩

def isWordChar (c : Char) : Bool := isGraph c && c != ':' && c != '#' && c != '=' && c != '(' && c != ',' && c != ';'

lemma isWordChar_iff {c : Char} (h : isWordChar c = true) : isGraph c = true ∧ c ≠ ':' ∧ c ≠ '#' ∧ c ≠ '=' ∧ c ≠ '(' ∧
    c ≠ ',' ∧ c ≠ ';' := by
  simp only [isWordChar, Bool.and_eq_true, bne_iff_ne] at h
  tauto

lemma isWordChar_of_isDigit {c : Char} (h : isDigit c = true) : isWordChar c = true := by
  have hc := of_decide_eq_true h
  have hgraph : isGraph c = true := decide_eq_true (by omega)
  simp only [isWordChar, hgraph, Bool.true_and, Bool.and_eq_true, bne_iff_ne]
  have hne {d : Char} (hd : isDigit d = false) : c ≠ d := isDigit_ne h hd
  exact ⟨⟨⟨⟨⟨hne rfl, hne rfl⟩, hne rfl⟩, hne rfl⟩, hne rfl⟩, hne rfl⟩

lemma formatInt_chars (n : ℤ) : formatInt n ≠ [] ∧ ∀ c ∈ formatInt n, isWordChar c = true := by
  rw [formatInt]
  split_ifs
  · refine ⟨List.cons_ne_nil _ _, ?_⟩
    intro c hc
    rcases List.mem_cons.mp hc with rfl | hc
    · rfl
    · exact isWordChar_of_isDigit (isDigit_toDigits hc)
  · exact ⟨Nat.toDigits_ne_nil, fun c hc => isWordChar_of_isDigit (isDigit_toDigits hc)⟩

lemma format_word (kind : OptionKind) (hkind : kind ≠ .corners) (v : OptionValue) :
    kind.format v ≠ [] ∧ ∀ c ∈ kind.format v, isWordChar c = true := by
  cases kind with
  | boolean =>
    rw [OptionKind.format, formatBoolean]
    split_ifs
    · exact ⟨by decide, by decide⟩
    · exact ⟨by decide, by decide⟩
  | int => exact formatInt_chars _
  | modifierKey =>
    rw [OptionKind.format, formatModifierKey]
    repeat' split
    all_goals exact ⟨by decide, by decide⟩
  | corners => exact absurd rfl hkind

lemma cornersText_chars {v : OptionValue} {rows : List (OptionValue × String)}
    (hrows : ∀ row ∈ rows, LineText row.2.toList) : (∀ c ∈ cornersText v rows, isLineChar c = true) ∧
      ∀ c ∈ (cornersText v rows).getLast?, isGraph c = true ∧ c ≠ ':' := by
  induction rows with
  | nil => simp [cornersText]
  | cons row rows ih =>
    obtain ⟨hchars, hlast⟩ := ih fun r hr => hrows r (List.mem_cons_of_mem row hr)
    have hrow := hrows row List.mem_cons_self
    rw [cornersText, List.flatMap_cons, ← cornersText, cornerText]
    split_ifs
    · refine ⟨?_, ?_⟩
      · intro c hc
        rcases List.mem_append.mp hc with hc | hc
        · rcases List.mem_cons.mp hc with rfl | hc
          · rfl
          · rcases List.mem_cons.mp hc with rfl | hc
            · rfl
            · exact hrow.chars c hc
        · exact hchars c hc
      · intro c hc
        rw [List.getLast?_append] at hc
        cases hl : (cornersText v rows).getLast? with
        | some d => exact hlast c (by simpa [hl] using hc)
        | none =>
          apply hrow.last
          obtain ⟨d, u, hu⟩ := List.exists_cons_of_ne_nil hrow.nonempty
          rw [hl, Option.none_or, hu, List.getLast?_cons_cons, List.getLast?_cons_cons] at hc
          rwa [hu]
    · exact ⟨hchars, hlast⟩

lemma format_lineText (kind : OptionKind) (v : OptionValue) : LineText (kind.format v) := by
  by_cases hkind : kind = .corners
  · subst hkind
    have hrows : ∀ row ∈ cornerRows, LineText row.2.toList := by
      intro row hrow
      simp only [cornerRows, List.mem_cons, List.not_mem_nil, or_false] at hrow
      rcases hrow with rfl | rfl | rfl | rfl
      all_goals exact lineText_of_word (by decide) (by decide)
    obtain ⟨hchars, hlast⟩ := cornersText_chars (v := v) hrows
    refine ⟨List.append_ne_nil_of_left_ne_nil (by decide) _, ?_, ?_, ?_⟩
    · intro c hc
      rcases List.mem_append.mp hc with hc | hc
      · exact (by decide : ∀ c ∈ "none".toList, isLineChar c = true) c hc
      · exact hchars c hc
    · rintro c ⟨⟩
      rfl
    · intro c hc
      change c ∈ ("none".toList ++ cornersText v cornerRows).getLast? at hc
      rw [List.getLast?_append] at hc
      cases hl : (cornersText v cornerRows).getLast? with
      | some d => exact hlast c (by simpa [hl] using hc)
      | none =>
        rw [hl] at hc
        obtain rfl := Option.some.inj hc
        decide
  · obtain ⟨hne, hchars⟩ := format_word kind hkind v
    apply lineText_of_word hne
    intro c hc
    obtain ⟨hgraph, hcolon, hcomment, -⟩ := isWordChar_iff (hchars c hc)
    exact ⟨hgraph, hcolon, hcomment⟩

end Texts

section Parsing

lemma inName_of_isWordChar {delim : List Char} (hdelim : ∀ d ∈ delim, isWordChar d = false) {c : Char}
    (h : isWordChar c = true) : inName delim c = true := by
  obtain ⟨hgraph, -, -, -, hbracket, -⟩ := isWordChar_iff h
  have hmem : c ∉ delim := fun hc => Bool.false_ne_true ((hdelim c hc).symm.trans h)
  simp [inName, isBlank_of_isGraph hgraph, hbracket, hmem]

lemma parseNameWithArgs_eq {type : String} {delim : List Char} {blanks name rest : Name}
    (hblanks : ∀ c ∈ blanks, isBlank c = true) (hname : ∀ c ∈ name, inName delim c = true)
    (hrest : ∀ c ∈ rest.head?, inName delim c = false) (hstart : ∃ c ∈ (name ++ rest).head?, isBlank c = false) :
    parseNameWithArgs type delim (blanks ++ (name ++ rest)) = parseArgs delim name (rest.dropWhile isBlank) := by
  obtain ⟨c, hc, hblank⟩ := hstart
  have hskip : (blanks ++ (name ++ rest)).dropWhile isBlank = name ++ rest := by
    apply dropWhile_word hblanks
    intro d hd
    obtain rfl := Option.some.inj (hc.symm.trans hd)
    exact hblank
  have hne : name ++ rest ≠ [] := by
    intro hnil
    rw [hnil] at hc
    nomatch hc
  rw [parseNameWithArgs, hskip, if_neg hne, takeWhile_word hname hrest, dropWhile_word hname hrest]

section Lines

variable {name value : Name} (hne : name ≠ []) (hname : ∀ c ∈ name, isWordChar c = true)

include hne hname

lemma word_head : ∃ c ∈ name.head?, isGraph c = true ∧ c ≠ '=' := by
  obtain ⟨c, u, rfl⟩ := List.exists_cons_of_ne_nil hne
  obtain ⟨hgraph, -, -, hequal, -⟩ := isWordChar_iff (hname c List.mem_cons_self)
  exact ⟨c, rfl, hgraph, hequal⟩

lemma optionLine_lineText (hvalue : LineText value) : LineText (name ++ " = ".toList ++ value) := by
  have hword : LineText name := by
    apply lineText_of_word hne
    intro c hc
    obtain ⟨hgraph, hcolon, hcomment, -⟩ := isWordChar_iff (hname c hc)
    exact ⟨hgraph, hcolon, hcomment⟩
  exact hword.append hvalue (by decide)

lemma splitArgument_option (hvalue : LineText value) :
    Reading.splitArgument (name ++ " = ".toList ++ value) = .ok (name, value) := by
  have hin : ∀ c ∈ name, (!(isBlank c || c == '=')) = true := by
    intro c hc
    obtain ⟨hgraph, -, -, hequal, -⟩ := isWordChar_iff (hname c hc)
    simp [isBlank_of_isGraph hgraph, hequal]
  have hend : ∀ c ∈ (" = ".toList ++ value).head?, (!(isBlank c || c == '=')) = false := by
    rintro c ⟨⟩
    rfl
  have hskip : value.dropWhile isBlank = value :=
    dropWhile_head fun c hc => isBlank_of_isGraph (hvalue.first c hc)
  rw [Reading.splitArgument, List.append_assoc]
  rw [takeWhile_word hin hend, dropWhile_word hin hend, if_neg hne]
  have hequal : (" = ".toList ++ value).dropWhile isBlank = '=' :: ' ' :: value := rfl
  rw [hequal]
  change Except.ok (name, (' ' :: value).dropWhile isBlank) = _
  rw [List.dropWhile_cons_of_pos (by decide), hskip]

lemma parse_optionName : parseNameWithArgs "name" ['='] (name ++ " = ".toList ++ value) =
    .ok (name, [], '=' :: ' ' :: value) := by
  have hin : ∀ c ∈ name, inName ['='] c = true := fun c hc => inName_of_isWordChar (by decide) (hname c hc)
  obtain ⟨c, hc, hgraph, -⟩ := word_head hne hname
  have hstart : ∃ c ∈ (name ++ (" = ".toList ++ value)).head?, isBlank c = false :=
    ⟨c, List.mem_head?_append_of_mem_head? hc, isBlank_of_isGraph hgraph⟩
  have heq : parseNameWithArgs "name" ['='] ([] ++ (name ++ (" = ".toList ++ value))) = _ :=
    parseNameWithArgs_eq (by simp) hin (by rintro c ⟨⟩; rfl) hstart
  rw [List.nil_append, ← List.append_assoc] at heq
  rw [heq]
  rfl

lemma parse_wordValue (blanks : Name) (hblanks : ∀ c ∈ blanks, isBlank c = true) :
    parseNameWithArgs "value" [',', ';', '\n'] (blanks ++ name) = .ok (name, [], []) := by
  have hin : ∀ c ∈ name, inName [',', ';', '\n'] c = true := fun c hc => inName_of_isWordChar (by decide) (hname c hc)
  obtain ⟨c, hc, hgraph, -⟩ := word_head hne hname
  have heq : parseNameWithArgs "value" [',', ';', '\n'] (blanks ++ (name ++ [])) = _ :=
    parseNameWithArgs_eq hblanks hin (by simp) ⟨c, by rwa [List.append_nil], isBlank_of_isGraph hgraph⟩
  rw [List.append_nil] at heq
  rw [heq]
  rfl

end Lines

/-- Of the corners, the options section reads the first word only. -/
lemma parse_cornersValue (v : OptionValue) : ∃ rest, (∀ c ∈ rest.head?, c = '+') ∧
    parseNameWithArgs "value" [',', ';', '\n'] (' ' :: formatCorners v) = .ok ("none".toList, [], rest) := by
  have hin : ∀ c ∈ "none".toList, inName [',', ';', '\n'] c = true := by decide
  have hblank := cornersText_head v cornerRows
  have hend : ∀ c ∈ (cornersText v cornerRows).head?, inName [',', ';', '\n'] c = false := by
    intro c hc
    simp [inName, hblank c hc]
  have heq : parseNameWithArgs "value" [',', ';', '\n'] ([' '] ++ ("none".toList ++ cornersText v cornerRows)) = _ :=
    parseNameWithArgs_eq (by decide) hin hend ⟨'n', rfl, rfl⟩
  have hplus : ∀ c ∈ ((cornersText v cornerRows).dropWhile isBlank).head?, c = '+' := by
    generalize cornerRows = rows
    induction rows with
    | nil => simp [cornersText]
    | cons row rows ih =>
      rw [cornersText, List.flatMap_cons, ← cornersText, cornerText]
      split_ifs
      · rintro c ⟨⟩
        rfl
      · exact ih
  refine ⟨(cornersText v cornerRows).dropWhile isBlank, hplus, ?_⟩
  refine heq.trans ?_
  cases hrest : (cornersText v cornerRows).dropWhile isBlank with
  | nil => rfl
  | cons c rest =>
    have hc : c = '+' := hplus c (by rw [hrest]; rfl)
    rw [parseArgs, if_pos (by rw [hc]; decide)]

end Parsing

section Arguments

def isArgChar (c : Char) : Bool := c != ',' && c != ')'

lemma takeArgs_close {arg word rest : Name} (h : ∀ c ∈ word, isArgChar c = true) (hne : ∃ c ∈ arg ++ word, isBlank c = false) :
    takeArgs arg (word ++ ')' :: rest) = some ([trim (arg ++ word)], rest) := by
  induction word generalizing arg with
  | nil =>
    obtain ⟨c, hc, hblank⟩ := hne
    have hall : ¬ arg.all isBlank = true := by
      rw [List.all_eq_true]
      intro hall
      exact Bool.false_ne_true (hblank.symm.trans (hall c (List.append_nil arg ▸ hc)))
    rw [List.nil_append, takeArgs, if_pos rfl, if_neg hall, List.append_nil]
  | cons c word ih =>
    have hc := h c List.mem_cons_self
    simp only [isArgChar, Bool.and_eq_true, bne_iff_ne] at hc
    have hword : arg ++ c :: word = arg ++ [c] ++ word := by simp
    rw [List.cons_append, takeArgs, if_neg hc.2, if_neg hc.1, hword,
      ih (fun d hd => h d (List.mem_cons_of_mem c hd)) (hword ▸ hne)]

lemma takeArgs_comma {arg word rest : Name} (h : ∀ c ∈ word, isArgChar c = true) :
    takeArgs arg (word ++ ',' :: rest) = (takeArgs [] rest).map fun (args, rest) => (trim (arg ++ word) :: args, rest) := by
  induction word generalizing arg with
  | nil => simp [takeArgs]
  | cons c word ih =>
    have hc := h c List.mem_cons_self
    simp only [isArgChar, Bool.and_eq_true, bne_iff_ne] at hc
    rw [List.cons_append, takeArgs, if_neg hc.2, if_neg hc.1, ih fun d hd => h d (List.mem_cons_of_mem c hd),
      List.append_assoc, List.singleton_append]

lemma trim_word {word : Name} (h : ∀ c ∈ word, isGraph c = true) : trim word = word := by
  apply trim_eq
  · intro c hc
    exact isBlank_of_isGraph (h c (List.mem_of_mem_head? hc))
  · intro c hc
    exact isBlank_of_isGraph (h c (List.mem_of_mem_getLast? hc))

def argsText (args : List Name) : Name := if args = [] then [] else '(' :: [','].intercalate args ++ [')']

section Calls

variable {args : List Name} (hargs : ∀ arg ∈ args, ∀ c ∈ arg, isGraph c = true ∧ isArgChar c = true)
  (hlast : args.getLast? ≠ some [])

include hargs hlast

lemma takeArgs_args (hne : args ≠ []) (rest : Name) : takeArgs [] ([','].intercalate args ++ ')' :: rest) = some (args, rest) := by
  induction args with
  | nil => exact absurd rfl hne
  | cons arg args ih =>
    have harg := hargs arg List.mem_cons_self
    have htrim : trim ([] ++ arg) = arg := trim_word fun c hc => (harg c hc).1
    cases args with
    | nil =>
      obtain ⟨c, word, rfl⟩ := List.exists_cons_of_ne_nil fun hnil : arg = [] => hlast (by rw [hnil]; rfl)
      have hblank : isBlank c = false := isBlank_of_isGraph (harg c List.mem_cons_self).1
      rw [List.intercalate_singleton, takeArgs_close (fun c hc => (harg c hc).2) ⟨c, List.mem_cons_self, hblank⟩, htrim]
    | cons arg' args =>
      have hrest := ih (fun a ha => hargs a (List.mem_cons_of_mem arg ha)) (List.getLast?_cons_cons ▸ hlast) (by simp)
      rw [List.intercalate_cons_cons, List.append_assoc, List.append_assoc, List.singleton_append,
        takeArgs_comma fun c hc => (harg c hc).2, hrest, htrim]
      rfl

lemma parseArgs_args {delim : List Char} {rest : Name} (name : Name)
    (hrest : ∀ c ∈ (rest.dropWhile isBlank).head?, c ≠ '(')
    (hneed : needDelim delim = true → ∃ c ∈ (rest.dropWhile isBlank).head?, c ∈ delim) :
    parseArgs delim name ((argsText args ++ rest).dropWhile isBlank) = .ok (name, args, rest.dropWhile isBlank) := by
  have hfirst (hdelim : needDelim delim = true) : rest.dropWhile isBlank ≠ [] := by
    intro hnil
    obtain ⟨c, hmem, -⟩ := hneed hdelim
    rw [hnil] at hmem
    nomatch hmem
  rw [argsText]
  split_ifs with hnil
  · rw [List.nil_append, hnil]
    cases hc : rest.dropWhile isBlank with
    | nil => rw [parseArgs, if_neg fun hdelim => hfirst hdelim hc]
    | cons c t => rw [parseArgs, if_pos (hrest c (by rw [hc]; rfl))]
  · have htext : ('(' :: [','].intercalate args ++ [')'] ++ rest).dropWhile isBlank =
        '(' :: ([','].intercalate args ++ ')' :: rest) := by
      rw [dropWhile_head (by rintro c ⟨⟩; rfl)]
      simp
    rw [htext, parseArgs, if_neg (by decide), takeArgs_args hargs hlast hnil]
    dsimp only
    rw [checkDelim, if_neg fun h => hfirst h.1 h.2, if_neg]
    rintro ⟨hdelim, hnot⟩
    obtain ⟨c, hmem, hc⟩ := hneed hdelim
    exact hnot c hmem hc

lemma parse_call {type : String} {delim : List Char} (hdelim : ∀ d ∈ delim, isWordChar d = false) {word : Name}
    (hne : word ≠ []) (hword : ∀ c ∈ word, isWordChar c = true) {blanks rest : Name}
    (hblanks : ∀ c ∈ blanks, isBlank c = true) (hend : ∀ c ∈ rest.head?, inName delim c = false)
    (hrest : ∀ c ∈ (rest.dropWhile isBlank).head?, c ≠ '(')
    (hneed : needDelim delim = true → ∃ c ∈ (rest.dropWhile isBlank).head?, c ∈ delim) :
    parseNameWithArgs type delim (blanks ++ (word ++ argsText args ++ rest)) = .ok (word, args, rest.dropWhile isBlank) := by
  have hin : ∀ c ∈ word, inName delim c = true := fun c hc => inName_of_isWordChar hdelim (hword c hc)
  obtain ⟨c, hc, hgraph, -⟩ := word_head hne hword
  have hhead : ∀ c ∈ (argsText args ++ rest).head?, inName delim c = false := by
    rw [argsText]
    split_ifs
    · exact hend
    · rintro d ⟨⟩
      rfl
  rw [List.append_assoc, parseNameWithArgs_eq hblanks hin hhead
    ⟨c, List.mem_head?_append_of_mem_head? hc, isBlank_of_isGraph hgraph⟩, parseArgs_args hargs hlast word hrest hneed]

lemma parse_callName {type : String} {word : Name} (hne : word ≠ []) (hword : ∀ c ∈ word, isWordChar c = true) {text : Name} :
    parseNameWithArgs type ['='] (word ++ argsText args ++ " = ".toList ++ text) = .ok (word, args, '=' :: ' ' :: text) := by
  have hrest : (" = ".toList ++ text).dropWhile isBlank = '=' :: ' ' :: text := rfl
  have hparse : parseNameWithArgs type ['='] ([] ++ (word ++ argsText args ++ (" = ".toList ++ text))) =
      .ok (word, args, (" = ".toList ++ text).dropWhile isBlank) := by
    apply parse_call hargs hlast (by decide) hne hword (by simp)
    · rintro c ⟨⟩
      rfl
    · rw [hrest]
      rintro c ⟨⟩
      decide
    · intro _
      exact ⟨'=', by rw [hrest]; rfl, by decide⟩
  rwa [hrest, List.nil_append, ← List.append_assoc] at hparse

end Calls

end Arguments

end InputLeap
