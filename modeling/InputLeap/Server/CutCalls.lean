import InputLeap.Server.RuleLines

/-! Conditions and actions that `string::sprintf` cuts short. The closing bracket is lost, and what follows is taken for
more of the last argument or for further arguments, so the rule is not read. -/

namespace InputLeap

open InputLeap.Lib InputLeap.Lib.Text

section Sprintf

def Whole (text : Name) : Prop := text.length < 2 ^ 30 ∧ ∀ k < 20, text.length ≠ 1024 * 2 ^ k

instance (text : Name) : Decidable (Whole text) := inferInstanceAs (Decidable (_ ∧ ∀ k < 20, _))

variable {text : Name} (h : ∀ ch ∈ text, isGraph ch = true)

lemma not_whole_length (hcut : ¬ Whole text) : 1024 ≤ text.length := by
  rw [Whole, not_and_or, not_forall] at hcut
  rcases hcut with hlong | ⟨k, hk⟩
  · omega
  · obtain ⟨-, heq⟩ := Classical.not_imp.mp hk
    have hpos := Nat.two_pow_pos k
    have hlength := not_not.mp heq
    omega

include h

lemma bytes_text : (text.map fun ch => UInt8.ofNat ch.toNat).map (fun byte => Char.ofNat byte.toNat) = text := by
  rw [List.map_map]
  conv_rhs => rw [← List.map_id text]
  apply List.map_congr_left
  intro ch hch
  have hgraph := of_decide_eq_true (h ch hch)
  have hbyte : (UInt8.ofNat ch.toNat).toNat = ch.toNat := by
    rw [UInt8.toNat_ofNat']
    omega
  rw [Function.comp_apply, hbyte, Char.ofNat_toNat, id]

lemma zero_notMem_bytes : 0 ∉ text.map fun ch => UInt8.ofNat ch.toNat := by
  intro hmem
  obtain ⟨ch, hch, hzero⟩ := List.mem_map.mp hmem
  have hgraph := of_decide_eq_true (h ch hch)
  have hnat := congrArg UInt8.toNat hzero
  rw [UInt8.toNat_ofNat', UInt8.toNat_zero] at hnat
  omega

lemma sprintf_whole (hwhole : Whole text) : sprintf text = some text := by
  have houtput : StringFormat.sprintf (text.map fun ch => UInt8.ofNat ch.toNat) =
      some (text.map fun ch => UInt8.ofNat ch.toNat) := by
    refine (StringFormat.sprintf_iff _).mpr ⟨?_, ?_, zero_notMem_bytes h⟩
    · rw [List.length_map]
      exact hwhole.1
    · intro k heq
      rw [List.length_map] at heq
      by_cases hk : k < 20
      · exact hwhole.2 k hk heq
      · have hpow : 2 ^ 20 ≤ 2 ^ k := Nat.pow_le_pow_right (by decide) (by omega)
        have hlength := hwhole.1
        omega
  rw [sprintf, houtput, Option.map_some, bytes_text h]

lemma sprintf_cut (hcut : ¬ Whole text) : sprintf text = none ∨ sprintf text = some text.dropLast := by
  rcases StringFormat.sprintf_cases (zero_notMem_bytes h) with hnone | hall | hlast
  · rw [sprintf, hnone]
    exact .inl rfl
  · obtain ⟨hlength, hne, -⟩ := (StringFormat.sprintf_iff _).mp hall
    rw [List.length_map] at hlength hne
    exact absurd ⟨hlength, fun k _ => hne k⟩ hcut
  · rw [sprintf, hlast, Option.map_some, ← List.map_dropLast, bytes_text fun ch hch => h ch (List.dropLast_subset _ hch)]
    exact .inr rfl

end Sprintf

section Unclosed

def Behind (tail : Name) : Prop :=
  tail = [] ∨ (∃ t, tail = ',' :: t) ∨ (∃ t, tail = ';' :: t) ∨ ∃ t, tail = ' ' :: '=' :: t

def Foreign (ch : Char) : Prop := isNameChar ch = false ∧ isBlank ch = false ∧ ch ≠ '*' ∧ ch ≠ ':'

instance (ch : Char) : Decidable (Foreign ch) := inferInstanceAs (Decidable (_ ∧ _))

lemma two_of_length {args : List Name} (h : 1 < args.length) : ∃ a b as, args = a :: b :: as := by
  rcases args with _ | ⟨a, _ | ⟨b, as⟩⟩
  · exact absurd h (by simp)
  · exact absurd h (by simp)
  · exact ⟨a, b, as, rfl⟩

/-- There are too many arguments, or the only one is not a list of screens. -/
def Spoiled (args : List Name) : Prop := 1 < args.length ∨ ∃ a, args = [a] ∧ ∃ ch ∈ a, Foreign ch

variable {s : Name} {ch : Char}

lemma mem_dropWhile {p : Char → Bool} (hmem : ch ∈ s) (hp : p ch = false) : ch ∈ s.dropWhile p := by
  rcases List.mem_append.mp (List.takeWhile_append_dropWhile (p := p) (l := s) ▸ hmem) with h | h
  · exact absurd (List.mem_takeWhile_imp h) (by simp [hp])
  · exact h

lemma mem_strip (hmem : ch ∈ s) (hblank : isBlank ch = false) : ch ∈ (s.dropWhile isBlank).rdropWhile isBlank := by
  rw [List.rdropWhile, List.mem_reverse]
  exact mem_dropWhile (List.mem_reverse.mpr (mem_dropWhile hmem hblank)) hblank

lemma mem_trim (hmem : ch ∈ s) (hblank : isBlank ch = false) : ch ∈ trim s := by
  rw [trim]
  split_ifs
  · exact hmem
  · exact mem_strip hmem hblank

lemma takeArgs_word {word : Name} (h : ∀ c ∈ word, isArgChar c = true) (arg tail : Name) :
    takeArgs arg (word ++ tail) = takeArgs (arg ++ word) tail := by
  induction word generalizing arg with
  | nil => rw [List.nil_append, List.append_nil]
  | cons c word ih =>
    have hc := h c List.mem_cons_self
    simp only [isArgChar, Bool.and_eq_true, bne_iff_ne] at hc
    rw [List.cons_append, takeArgs, if_neg hc.2, if_neg hc.1, ih fun d hd => h d (List.mem_cons_of_mem c hd),
      List.append_assoc, List.singleton_append]

lemma takeArgs_mem {arg : Name} {args : List Name} {rest : Name} (h : takeArgs arg s = some (args, rest)) (hmem : ch ∈ arg)
    (hblank : isBlank ch = false) : ∃ a as, args = a :: as ∧ ch ∈ a := by
  induction s generalizing arg args rest with
  | nil => simp [takeArgs] at h
  | cons c s ih =>
    rw [takeArgs] at h
    split_ifs at h
    · obtain ⟨rfl, -⟩ := Prod.mk.inj (Option.some.inj h)
      exact ⟨_, [], rfl, mem_trim hmem hblank⟩
    · obtain ⟨⟨args', rest'⟩, -, heq⟩ := Option.map_eq_some_iff.mp h
      obtain ⟨rfl, -⟩ := Prod.mk.inj heq
      exact ⟨_, args', rfl, mem_trim hmem hblank⟩
    · exact ih h (List.mem_append_left _ hmem)

lemma spoiled_of_mem {arg : Name} {args : List Name} {rest : Name} (h : takeArgs arg s = some (args, rest)) (hmem : ch ∈ arg)
    (hforeign : Foreign ch) : Spoiled args := by
  obtain ⟨a, as, rfl, ha⟩ := takeArgs_mem h hmem hforeign.2.1
  cases as with
  | nil => exact .inr ⟨a, rfl, ch, ha, hforeign⟩
  | cons b as => exact .inl (by simp)

lemma takeArgs_behind {arg tail : Name} {args : List Name} {rest : Name} (htail : Behind tail)
    (h : takeArgs arg tail = some (args, rest)) : Spoiled args := by
  rcases htail with rfl | ⟨t, rfl⟩ | ⟨t, rfl⟩ | ⟨t, rfl⟩
  · nomatch h
  · obtain ⟨⟨args', rest'⟩, htake, heq⟩ := Option.map_eq_some_iff.mp h
    obtain ⟨rfl, -⟩ := Prod.mk.inj heq
    obtain ⟨a, ha, -⟩ := takeArgs_last htake
    have hpos : 0 < args'.length := List.length_pos_of_mem (List.mem_of_getLast? ha)
    exact .inl (by rw [List.length_cons]; omega)
  · have hopen : takeArgs arg ([';'] ++ t) = some (args, rest) := h
    rw [takeArgs_word (by decide)] at hopen
    exact spoiled_of_mem hopen (show ';' ∈ _ by simp) (by decide)
  · have hopen : takeArgs arg ([' ', '='] ++ t) = some (args, rest) := h
    rw [takeArgs_word (by decide)] at hopen
    exact spoiled_of_mem hopen (show '=' ∈ _ by simp) (by decide)

lemma parse_open {type : String} {delim : List Char} (hdelim : ∀ d ∈ delim, isWordChar d = false) {word blanks : Name}
    (hne : word ≠ []) (hword : ∀ c ∈ word, isWordChar c = true) (hblanks : ∀ c ∈ blanks, isBlank c = true)
    {name rest : Name} {args : List Name}
    (h : parseNameWithArgs type delim (blanks ++ (word ++ '(' :: s)) = .ok (name, args, rest)) :
    name = word ∧ ∃ rest', takeArgs [] s = some (args, rest') := by
  have hin : ∀ c ∈ word, inName delim c = true := fun c hc => inName_of_isWordChar hdelim (hword c hc)
  obtain ⟨c, hc, hgraph, -⟩ := word_head hne hword
  have hparse : parseNameWithArgs type delim (blanks ++ (word ++ '(' :: s)) = parseArgs delim word ('(' :: s) :=
    parseNameWithArgs_eq hblanks hin (by rintro d ⟨⟩; rfl)
      ⟨c, List.mem_head?_append_of_mem_head? hc, isBlank_of_isGraph hgraph⟩
  rw [hparse, parseArgs, if_neg (by decide)] at h
  cases htake : takeArgs [] s with
  | none =>
    rw [htake] at h
    cases h
  | some taken =>
    rw [htake] at h
    dsimp only at h
    rw [checkDelim] at h
    split_ifs at h
    cases h
    exact ⟨rfl, _, rfl⟩

variable {c : Config} (hinv : c.StoredInv)

include hinv

lemma isScreen_foreign (hmem : ch ∈ s) (hforeign : Foreign ch) : c.isScreen s = false := by
  rw [Bool.eq_false_iff]
  intro hscreen
  exact Bool.false_ne_true (hforeign.1.symm.trans ((hinv.screenName hscreen).2.1 ch hmem))

lemma addNamed_foreign (hmem : ch ∈ s) (hforeign : Foreign ch) (screens : ScreenSet) :
    ∃ e, c.addNamed screens s = .error e := by
  have hstrip := mem_strip hmem hforeign.2.1
  have hunknown := isScreen_foreign hinv hstrip hforeign
  rw [Config.isScreen, OrdMap.contains, Option.isSome_eq_false_iff, Option.isNone_iff_eq_none] at hunknown
  rw [Config.addNamed, if_neg, if_neg (List.ne_nil_of_mem hstrip), if_pos]
  · exact ⟨_, rfl⟩
  · rw [Config.getCanonicalName, hunknown]
    rfl
  · intro hall
    rw [hall] at hstrip
    exact hforeign.2.2.1 (List.mem_singleton.mp hstrip)

lemma parseScreens_foreign {part : Name} (hmem : ch ∈ part ++ s) (hforeign : Foreign ch) (screens : ScreenSet) :
    ∃ e, c.parseScreens part screens s = .error e := by
  induction s generalizing part screens with
  | nil =>
    rw [List.append_nil] at hmem
    exact addNamed_foreign hinv hmem hforeign screens
  | cons d s ih =>
    rw [Config.parseScreens]
    split_ifs with hcolon
    · rcases List.mem_append.mp hmem with hpart | hrest
      · obtain ⟨e, he⟩ := addNamed_foreign hinv hpart hforeign screens
        rw [he]
        exact ⟨e, rfl⟩
      · have hs := (List.mem_cons.mp hrest).resolve_left fun heq => hforeign.2.2.2 (heq.trans hcolon)
        cases c.addNamed screens part with
        | error e => exact ⟨e, rfl⟩
        | ok screens' => exact ih (List.mem_append_right _ hs) screens'
    · exact ih (by simpa using hmem) screens

lemma screenArg_foreign (hmem : ch ∈ s) (hforeign : Foreign ch) (error : Name → String) :
    c.screenArg error s = .error (error s) := by
  rw [Config.screenArg, if_neg, if_pos (List.ne_nil_of_mem hmem)]
  rw [isScreen_foreign hinv hmem hforeign]
  exact Bool.false_ne_true

lemma parseCondition_spoiled {args : List Name} (h : Spoiled args) :
    (c.parseCondition "connect".toList args).toOption = none := by
  unfold Config.parseCondition
  rw [if_neg (by decide), if_neg (by decide), if_pos rfl]
  rcases h with hlong | ⟨a, rfl, ch, hmem, hforeign⟩
  · obtain ⟨a, b, as, rfl⟩ := two_of_length hlong
    rfl
  · dsimp only
    rw [screenArg_foreign hinv hmem hforeign]
    rfl

lemma keystrokeArgs_spoiled {args : List Name} (h : Spoiled args) (key : Name) :
    (c.keystrokeArgs (key :: args)).toOption = none := by
  rcases h with hlong | ⟨a, rfl, ch, hmem, hforeign⟩
  · obtain ⟨a, b, as, rfl⟩ := two_of_length hlong
    rfl
  · obtain ⟨e, he⟩ := parseScreens_foreign hinv (show ch ∈ ([] : Name) ++ _ from hmem) hforeign .empty
    rw [Config.keystrokeArgs, he]
    rfl

lemma broadcastArgs_spoiled {args : List Name} (h : Spoiled args) (mode : Name) :
    (c.broadcastArgs (mode :: args)).toOption = none := by
  rcases h with hlong | ⟨a, rfl, ch, hmem, hforeign⟩
  · obtain ⟨a, b, as, rfl⟩ := two_of_length hlong
    rfl
  · obtain ⟨e, he⟩ := parseScreens_foreign hinv (show ch ∈ ([] : Name) ++ _ from hmem) hforeign .empty
    unfold Config.broadcastArgs
    dsimp only
    cases Config.parseMode mode with
    | none => rfl
    | some mode =>
      dsimp only
      rw [he]
      rfl

end Unclosed

section Calls

variable {call : String × List Name} {c : Config}

lemma callText_dropLast (hne : call.2 ≠ []) :
    (callText call).dropLast = call.1.toList ++ '(' :: [','].intercalate call.2 := by
  rw [callText, argsText, if_neg hne, ← List.append_assoc, List.dropLast_concat]

lemma whole_of_short (word : String) {arg : Name} (hword : word.toList.length ≤ 20) (harg : arg.length ≤ 1000) :
    Whole (callText (word, [arg])) := by
  by_contra hcut
  have hlength := not_whole_length hcut
  simp only [callText, argsText, List.cons_ne_nil, if_false, List.intercalate_singleton, List.length_append,
    List.length_cons, List.length_nil] at hlength
  omega

lemma length_formatButton_le {button : ButtonID} {mask : KeyModifierMask} (h : ValidButton button mask) :
    (formatButton button mask).length ≤ 60 := by
  have hmodifiers := KeyNames.length_modifiersText_le (@KeyNames.bits_lt mask)
  have hbits := KeyNames.length_bits_le mask
  have hdigits : (Nat.toDigits 10 button.toNat).length ≤ 3 := by
    have := button.isLt
    exact (Nat.length_toDigits_le_iff (by decide) (by decide)).mpr (by omega)
  rw [formatButton_eq h.named, List.length_append]
  omega

lemma ReadableCall.visible (h : ReadableCall call) : ∀ ch ∈ callText call, isGraph ch = true ∧ ch ≠ '#' := by
  have hword : ∀ ch ∈ call.1.toList, isGraph ch = true ∧ ch ≠ '#' := by
    intro ch hch
    obtain ⟨hgraph, -, hcomment, -⟩ := isWordChar_iff (h.word ch hch)
    exact ⟨hgraph, hcomment⟩
  rw [callText, argsText]
  split_ifs
  · rwa [List.append_nil]
  · simp only [List.forall_mem_append, List.forall_mem_cons]
    refine ⟨hword, ⟨by decide, ?_⟩, by decide, List.forall_mem_nil _⟩
    refine @intercalate_chars (fun ch => isGraph ch = true ∧ ch ≠ '#') call.2 (by decide) fun arg harg ch hch => ?_
    obtain ⟨hgraph, -, hcomment⟩ := isRuleChar_iff.mp (h.args arg harg ch hch)
    exact ⟨hgraph, hcomment⟩

lemma ReadableCall.written (h : ReadableCall call) {text : Name} (htext : sprintf (callText call) = some text) :
    Whole (callText call) ∧ text = callText call ∨ ¬ Whole (callText call) ∧ text = (callText call).dropLast := by
  have hgraph := fun ch hch => (h.visible ch hch).1
  by_cases hwhole : Whole (callText call)
  · rw [sprintf_whole hgraph hwhole] at htext
    exact .inl ⟨hwhole, (Option.some.inj htext).symm⟩
  · right
    rcases sprintf_cut hgraph hwhole with hnone | hcut
    · rw [hnone] at htext
      nomatch htext
    · rw [hcut] at htext
      exact ⟨hwhole, (Option.some.inj htext).symm⟩

section Parse

variable (hinv : c.StoredInv) {type : String} {delim : List Char} (hdelim : ∀ d ∈ delim, isWordChar d = false)
  {blanks tail name rest : Name} (hblanks : ∀ ch ∈ blanks, isBlank ch = true) (htail : Behind tail) {args : List Name}

include hdelim hblanks htail

lemma parse_cut {word : String} {arg : Name} (hcall : ReadableCall (word, [arg]))
    (h : parseNameWithArgs type delim (blanks ++ ((callText (word, [arg])).dropLast ++ tail)) = .ok (name, args, rest)) :
    name = word.toList ∧ Spoiled args := by
  rw [callText_dropLast (by simp), List.append_assoc, List.cons_append] at h
  obtain ⟨rfl, rest', htake⟩ := parse_open hdelim hcall.nonempty hcall.word hblanks h
  have harg : ∀ ch ∈ arg, isArgChar ch = true := fun ch hch =>
    (isRuleChar_iff.mp (hcall.args arg List.mem_cons_self ch hch)).2.1
  rw [List.intercalate_singleton, takeArgs_word harg, List.nil_append] at htake
  exact ⟨rfl, takeArgs_behind htail htake⟩

lemma parse_cutPair {word : String} {first arg : Name} (hcall : ReadableCall (word, [first, arg]))
    (h : parseNameWithArgs type delim (blanks ++ ((callText (word, [first, arg])).dropLast ++ tail)) =
      .ok (name, args, rest)) :
    name = word.toList ∧ ∃ as, args = first :: as ∧ Spoiled as := by
  rw [callText_dropLast (by simp), List.append_assoc, List.cons_append] at h
  obtain ⟨rfl, rest', htake⟩ := parse_open hdelim hcall.nonempty hcall.word hblanks h
  have hchars (a : Name) (ha : a ∈ [first, arg]) (ch : Char) (hch : ch ∈ a) := isRuleChar_iff.mp (hcall.args a ha ch hch)
  have htext : [','].intercalate [first, arg] ++ tail = first ++ ',' :: (arg ++ tail) := by
    simp [List.intercalate_cons_cons]
  rw [htext, takeArgs_comma fun ch hch => (hchars first (by simp) ch hch).2.1,
    takeArgs_word fun ch hch => (hchars arg (by simp) ch hch).2.1, List.nil_append, List.nil_append,
    trim_word fun ch hch => (hchars first (by simp) ch hch).1] at htake
  obtain ⟨⟨as, rest''⟩, hrest, heq⟩ := Option.map_eq_some_iff.mp htake
  obtain ⟨rfl, -⟩ := Prod.mk.inj heq
  exact ⟨rfl, as, rfl, takeArgs_behind htail hrest⟩

include hinv

lemma parseCondition_cut {condition : Condition} (h : condition.Stored c) (hcut : ¬ Whole (callText condition.call))
    (hparse : parseNameWithArgs type delim (blanks ++ ((callText condition.call).dropLast ++ tail)) =
      .ok (name, args, rest)) :
    name = condition.call.1.toList ∧ (c.parseCondition name args).toOption = none := by
  have hcall := h.readableCall hinv
  cases condition with
  | keystroke key mask =>
    have hlength := KeyNames.length_formatKey_le h.named key
    exact absurd (whole_of_short _ (by decide) (by omega)) hcut
  | mouseButton button mask =>
    have hlength := length_formatButton_le h
    exact absurd (whole_of_short _ (by decide) (by omega)) hcut
  | screenConnected screen =>
    obtain ⟨rfl, hspoiled⟩ := parse_cut hdelim hblanks htail hcall hparse
    exact ⟨rfl, parseCondition_spoiled hinv hspoiled⟩

lemma parseAction_cut {a : Action} (h : a.Stored c) (hcut : ¬ Whole (callText a.call))
    (hparse : parseNameWithArgs type delim (blanks ++ ((callText a.call).dropLast ++ tail)) = .ok (name, args, rest))
    (r : Rule) (activate : Bool) : name ≠ [] ∧ (c.parseAction r activate name args).toOption = none := by
  have hcall := h.readableCall hinv
  cases a with
  | lockCursorToScreen mode =>
    exact absurd (whole_of_short _ (by decide) (by cases mode <;> decide)) hcut
  | switchToScreen screen =>
    obtain ⟨rfl, hspoiled⟩ := parse_cut hdelim hblanks htail hcall hparse
    refine ⟨hcall.nonempty, ?_⟩
    unfold Config.parseAction
    iterate 6 rw [if_neg (by decide)]
    rw [if_pos rfl]
    rcases hspoiled with hlong | ⟨a, rfl, ch, hmem, hforeign⟩
    · obtain ⟨a, b, as, rfl⟩ := two_of_length hlong
      rfl
    · dsimp only
      rw [screenArg_foreign hinv hmem hforeign]
      rfl
  | toggleScreen => exact absurd (by decide) hcut
  | switchInDirection dir =>
    exact absurd (whole_of_short _ (by decide) (by cases dir <;> decide)) hcut
  | keyboardBroadcast mode screens =>
    change ¬ Whole (callText ("keyboardBroadcast", broadcastTexts mode screens)) at hcut
    change ReadableCall ("keyboardBroadcast", broadcastTexts mode screens) at hcall
    change parseNameWithArgs type delim
      (blanks ++ ((callText ("keyboardBroadcast", broadcastTexts mode screens)).dropLast ++ tail)) = _ at hparse
    rw [broadcastTexts] at hcut hcall hparse
    split_ifs at hcut hcall hparse
    · exact absurd (whole_of_short _ (by decide) (by cases mode <;> decide)) hcut
    · obtain ⟨rfl, as, rfl, hspoiled⟩ := parse_cutPair hdelim hblanks htail hcall hparse
      refine ⟨hcall.nonempty, ?_⟩
      unfold Config.parseAction
      iterate 10 rw [if_neg (by decide)]
      rw [if_pos rfl, toOption_bind, broadcastArgs_spoiled hinv hspoiled]
      rfl
  | keystroke key mask screens press =>
    have hlength := KeyNames.length_formatKey_le h.1.named key
    change ¬ Whole (callText (if press then "keyDown" else "keyUp", keystrokeTexts key mask screens)) at hcut
    change ReadableCall (if press then "keyDown" else "keyUp", keystrokeTexts key mask screens) at hcall
    change parseNameWithArgs type delim (blanks ++
      ((callText (if press then "keyDown" else "keyUp", keystrokeTexts key mask screens)).dropLast ++ tail)) = _ at hparse
    rw [keystrokeTexts] at hcut hcall hparse
    split_ifs at hcut hcall hparse
    · exact absurd (whole_of_short _ (by decide) (by omega)) hcut
    · obtain ⟨rfl, as, rfl, hspoiled⟩ := parse_cutPair hdelim hblanks htail hcall hparse
      refine ⟨hcall.nonempty, ?_⟩
      unfold Config.parseAction
      rw [if_neg (by decide), if_pos rfl, toOption_bind, keystrokeArgs_spoiled hinv hspoiled]
      rfl
    · exact absurd (whole_of_short _ (by decide) (by omega)) hcut
    · obtain ⟨rfl, as, rfl, hspoiled⟩ := parse_cutPair hdelim hblanks htail hcall hparse
      refine ⟨hcall.nonempty, ?_⟩
      unfold Config.parseAction
      rw [if_neg (by decide), if_neg (by decide), if_pos rfl, toOption_bind, keystrokeArgs_spoiled hinv hspoiled]
      rfl
  | mouseButton button mask press =>
    have hlength := length_formatButton_le h
    cases press with
    | true => exact absurd (whole_of_short "mouseDown" (by decide) (by omega)) hcut
    | false => exact absurd (whole_of_short "mouseUp" (by decide) (by omega)) hcut

end Parse

end Calls

end InputLeap
