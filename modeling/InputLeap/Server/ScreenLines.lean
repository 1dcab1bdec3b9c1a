import InputLeap.Server.ReadInvariants

/-! The section of screens, and the options of the server, as they are written and read again. -/

namespace InputLeap

open InputLeap.Lib InputLeap.Lib.Text

section Tables

lemma find?_of_nodup {α β : Type} [DecidableEq β] {f : α → β} {l : List α} (h : (l.map f).Nodup) {a : α} (ha : a ∈ l) :
    l.find? (fun x => decide (f x = f a)) = some a := by
  induction l with
  | nil => nomatch ha
  | cons b l ih =>
    rw [List.map_cons, List.nodup_cons] at h
    rcases List.mem_cons.mp ha with rfl | ha
    · simp
    · have hne : f b ≠ f a := fun heq => h.1 (heq ▸ List.mem_map_of_mem ha)
      rw [List.find?_cons_of_neg (by simpa using hne), ih h.2 ha]

lemma optionNamed_row {table : List (String × OptionID × OptionKind)} (h : (table.map Prod.fst).Nodup)
    {row : String × OptionID × OptionKind} (hrow : row ∈ table) : optionNamed table row.1.toList = some row.2 := by
  have hnodup : (table.map fun e => e.1.toList).Nodup := by
    have := h.map (f := String.toList) fun _ _ => String.toList_injective
    rwa [List.map_map] at this
  rw [optionNamed, find?_of_nodup hnodup hrow]
  rfl

def isOptionWord (name : String) : Bool := decide (name.toList ≠ []) && name.toList.all isWordChar

lemma isOptionWord_iff {name : String} (h : isOptionWord name = true) :
    name.toList ≠ [] ∧ ∀ c ∈ name.toList, isWordChar c = true := by
  rw [isOptionWord, Bool.and_eq_true, decide_eq_true_iff] at h
  exact ⟨h.1, List.all_eq_true.mp h.2⟩

def printedName (id : OptionID) : Option String := (optionNames.find? fun e => decide (e.1 = id)).map Prod.snd

lemma getOptionName_eq (id : OptionID) : getOptionName id = (printedName id).map String.toList := by
  rw [getOptionName, printedName, Option.map_map]
  rfl

lemma screenOptions_printed : ∀ row ∈ screenOptions, printedName row.2.1 = some row.1 ∧
    printedAs row.2.1 = some row.2.2 ∧ isOptionWord row.1 = true := by
  decide +kernel

lemma options_nodup : (screenOptions.map Prod.fst).Nodup ∧ (globalOptions.map Prod.fst).Nodup := by
  decide +kernel

/-- The options of the fork have no name when they are written; the size of the clipboard has another kind. -/
def isUnnamed (id : OptionID) : Bool := id == kOptionScreenDimmingEnabled || id == kOptionScreenDimmingPercentage

lemma globalOptions_printed : ∀ row ∈ globalOptions,
    printedName row.2.1 = (if isUnnamed row.2.1 then none else some row.1) ∧
    printedAs row.2.1 = some (if row.2.1 = kOptionClipboardSharingSize then .boolean else row.2.2) ∧
    isOptionWord row.1 = true ∧ row.1 ≠ "address" ∧ (row.2.1 = kOptionScreenSwitchCorners ↔ row.2.2 = .corners) ∧
    (row.2.1 = kOptionClipboardSharingSize → row.2.2 = .int ∧ isUnnamed row.2.1 = false) := by
  decide +kernel

end Tables

section Lines

variable {resolves : Name → Bool} {s : Reading}

lemma optionLine_ne_end (name value : Name) : name ++ " = ".toList ++ value ≠ "end".toList := by
  intro h
  have hmem : '=' ∈ name ++ " = ".toList ++ value := by simp
  rw [h] at hmem
  exact absurd hmem (by decide)

lemma writeOption_eq {id : OptionID} {name : String} {kind : OptionKind} (hname : printedName id = some name)
    (hkind : printedAs id = some kind) (indent : Name) (v : OptionValue) :
    writeOption indent (id, v) = some (indent ++ (name.toList ++ " = ".toList ++ kind.format v)) := by
  have hvalue : getOptionValue id v = kind.format v := by
    rw [getOptionValue, hkind]
    rfl
  rw [writeOption, getOptionName_eq, hname]
  dsimp only [Option.map_some]
  rw [hvalue, if_neg (format_lineText kind v).nonempty, List.append_assoc, List.append_assoc, List.append_assoc]

lemma next_screenOption {row : String × OptionID × OptionKind} (hrow : row ∈ screenOptions) {v : OptionValue}
    (hv : row.2.2.Valid v) (hinside : s.inside = some .screens) (hscreen : s.screen ≠ []) :
    s.next resolves ("\t\t".toList ++ (row.1.toList ++ " = ".toList ++ row.2.2.format v)) =
      some (s.addOption s.screen row.2.1 v) := by
  obtain ⟨-, -, hword⟩ := screenOptions_printed row hrow
  obtain ⟨hne, hchars⟩ := isOptionWord_iff hword
  have htext := format_lineText row.2.2 v
  have hline := optionLine_lineText hne hchars htext
  rw [next_content hinside (by decide) hline.clean (optionLine_ne_end _ _), Reading.readContent,
    Reading.readScreenLine, if_neg hline.last_ne, if_neg hscreen, splitArgument_option hne hchars htext]
  rw [toOption_bind, Except.toOption, Option.bind_some]
  dsimp only
  rw [optionNamed_row options_nodup.1 hrow]
  dsimp only
  rw [parse_format hv]
  rfl

lemma header_clean {name : Name} (hne : name ≠ []) (hname : ∀ c ∈ name, isNameChar c = true) :
    CleanLine (name ++ [':']) ∧ name ++ [':'] ≠ "end".toList := by
  have hword := fun c hc => isWordChar_iff (isWordChar_of_isNameChar (hname c hc))
  refine ⟨⟨?_, ?_, ⟨':', by simp, rfl⟩⟩, ?_⟩
  · intro c hc
    rcases List.mem_append.mp hc with hc | hc
    · exact isLineChar_of_isGraph (hword c hc).1 (hword c hc).2.2.1
    · rw [List.mem_singleton.mp hc]
      rfl
  · obtain ⟨c, u, rfl⟩ := List.exists_cons_of_ne_nil hne
    exact ⟨c, rfl, isBlank_of_isGraph (hword c List.mem_cons_self).1⟩
  · intro h
    have hmem : ':' ∈ name ++ [':'] := by simp
    rw [h] at hmem
    exact absurd hmem (by decide)

lemma next_header {sect : SectionName} (hinside : s.inside = some sect) {name : Name} (hne : name ≠ [])
    (hname : ∀ c ∈ name, isNameChar c = true) :
    s.next resolves (header name) = (s.readContent resolves (name ++ [':']) sect).toOption := by
  obtain ⟨hclean, hend⟩ := header_clean hne hname
  have hindent : ∀ c ∈ ['\t'], isBlank c = true := by decide
  exact next_content hinside hindent hclean hend

end Lines

namespace Config

def addCell (c : Config) (name : Name) (options : ScreenOptions) : Config :=
  { c with
    map := c.map.insert name ⟨.empty, options⟩
    nameToCanonicalName := c.nameToCanonicalName.insert name name }

end Config

def Reading.withCell (s : Reading) (name : Name) (options : ScreenOptions) : Reading :=
  { s.setConfig (s.config.addCell name options) with screen := name }

section Screens

variable {resolves : Name → Bool} {s : Reading} {name : Name}

lemma next_screenHeader (hinside : s.inside = some .screens) (hvalid : Reading.isValidScreenName name = true)
    (hnew : s.config.isScreen name = false) :
    s.next resolves (header name) = some (s.withCell name .empty) := by
  obtain ⟨hne, hchars⟩ := isNameChar_of_valid hvalid
  have hadd : s.config.addScreen name = some (s.config.addCell name .empty) := if_neg (Bool.eq_false_iff.mp hnew)
  rw [next_header hinside hne hchars, Reading.readContent, Reading.readScreenLine, if_pos (by simp), List.dropLast_concat,
    Reading.readScreenHeader, if_neg (by simp [hvalid]), hadd]
  rfl

lemma addOption_addCell {c : Config} (hne : name ≠ []) (hnew : c.map.contains name = false) (options : ScreenOptions)
    (id : OptionID) (v : OptionValue) :
    ((c.addCell name options).addOption name id v).getD (c.addCell name options) =
      c.addCell name (options.insert id v) := by
  have hcontains : (c.addCell name options).map.contains name = true := OrdMap.contains_insert.mpr (.inl rfl)
  rw [Config.addOption, if_neg hne, if_pos hcontains, Option.getD_some, Config.addCell, Config.addCell]
  dsimp only
  rw [OrdMap.modify_insert hnew]

lemma runFrom_screenOptions (hinside : s.inside = some .screens) (hne : name ≠ [])
    (hnew : s.config.map.contains name = false) {os : List (OptionID × OptionValue)}
    (hknown : ∀ option ∈ os, Config.KnownOption screenOptions option) (options : ScreenOptions) :
    runFrom (Reading.next resolves) (os.filterMap (writeOption "\t\t".toList)) (s.withCell name options) =
      some (s.withCell name (os.foldl (fun m o => m.insert o.1 o.2) options)) := by
  induction os generalizing options with
  | nil => rfl
  | cons option os ih =>
    obtain ⟨row, hrow, hid, hvalid⟩ := hknown option List.mem_cons_self
    obtain ⟨hname, hkind, -⟩ := screenOptions_printed row hrow
    have hwrite : writeOption "\t\t".toList option = _ := writeOption_eq (hid ▸ hname) (hid ▸ hkind) _ option.2
    have hnext : (s.withCell name options).next resolves _ = _ := next_screenOption hrow hvalid hinside hne
    rw [List.filterMap_cons_some hwrite, runFrom, hnext, Option.bind_some, List.foldl_cons,
      ← ih fun o ho => hknown o (List.mem_cons_of_mem option ho)]
    congr 1
    have hadd := addOption_addCell hne hnew options row.2.1 option.2
    rw [hid] at hadd ⊢
    exact congrArg (fun c => { s.setConfig c with screen := name }) hadd

def screenLines (name : Name) (options : ScreenOptions) : List Name :=
  header name :: options.entries.filterMap (writeOption "\t\t".toList)

lemma runFrom_screenLines (hinside : s.inside = some .screens) (hvalid : Reading.isValidScreenName name = true)
    (hnew : s.config.isScreen name = false) (hmap : s.config.map.contains name = false) {options : ScreenOptions}
    (hknown : ∀ option ∈ options.entries, Config.KnownOption screenOptions option) :
    runFrom (Reading.next resolves) (screenLines name options) s =
      some (s.withCell name options) := by
  rw [screenLines, runFrom, next_screenHeader hinside hvalid hnew, Option.bind_some,
    runFrom_screenOptions hinside (isNameChar_of_valid hvalid).1 hmap hknown, OrdMap.foldl_insert_entries]

def addCells (s : Reading) (es : List (Name × ScreenOptions)) : Reading :=
  es.foldl (fun s e => s.withCell e.1 e.2) s

lemma runFrom_cells {α : Type} (cell : α → Name × ScreenOptions) {lines : α → List Name} {es : List α}
    (hlines : ∀ e ∈ es, ∀ s : Reading, s.inside = some .screens → s.config.isScreen (cell e).1 = false →
      s.config.map.contains (cell e).1 = false →
      runFrom (Reading.next resolves) (lines e) s = some (s.withCell (cell e).1 (cell e).2))
    (hinside : s.inside = some .screens)
    (hnew : ∀ e ∈ es, s.config.isScreen (cell e).1 = false ∧ s.config.map.contains (cell e).1 = false)
    (hdistinct : es.Pairwise fun a b => caseless (cell a).1 ≠ caseless (cell b).1) :
    runFrom (Reading.next resolves) (es.flatMap lines) s = some (addCells s (es.map cell)) := by
  induction es generalizing s with
  | nil => rfl
  | cons e es ih =>
    obtain ⟨hfirst, hrest⟩ := List.pairwise_cons.mp hdistinct
    obtain ⟨hscreen, hmap⟩ := hnew e List.mem_cons_self
    rw [List.flatMap_cons, runFrom_append, hlines e List.mem_cons_self s hinside hscreen hmap, Option.bind_some]
    refine ih (s := s.withCell (cell e).1 (cell e).2) (fun d hd => hlines d (List.mem_cons_of_mem e hd)) hinside ?_ hrest
    intro d hd
    obtain ⟨hdscreen, hdmap⟩ := hnew d (List.mem_cons_of_mem e hd)
    have hne := hfirst d hd
    refine ⟨?_, ?_⟩
    · rw [Bool.eq_false_iff] at hdscreen ⊢
      intro hcontains
      exact (OrdMap.contains_insert.mp hcontains).elim hne hdscreen
    · rw [Bool.eq_false_iff] at hdmap ⊢
      intro hcontains
      exact (OrdMap.contains_insert.mp hcontains).elim hne hdmap

lemma runFrom_screens {es : List (Name × ScreenOptions)} (hinside : s.inside = some .screens)
    (hvalid : ∀ e ∈ es, Reading.isValidScreenName e.1 = true)
    (hknown : ∀ e ∈ es, ∀ option ∈ e.2.entries, Config.KnownOption screenOptions option)
    (hnew : ∀ e ∈ es, s.config.isScreen e.1 = false ∧ s.config.map.contains e.1 = false)
    (hdistinct : es.Pairwise fun a b => caseless a.1 ≠ caseless b.1) :
    runFrom (Reading.next resolves) (es.flatMap fun e => screenLines e.1 e.2) s = some (addCells s es) := by
  have hrun := @runFrom_cells resolves s _ id (fun e : Name × ScreenOptions => screenLines e.1 e.2) es ?_ hinside hnew
    hdistinct
  · rwa [List.map_id] at hrun
  · intro e he s hinside hscreen hmap
    exact runFrom_screenLines hinside (hvalid e he) hscreen hmap (hknown e he)

end Screens

namespace Config

def bare (c : Config) : Config where
  map := c.map.mapValues fun cell => ⟨.empty, cell.options⟩
  nameToCanonicalName := ⟨c.map.entries.map fun e => (e.1, e.1), List.pairwise_map.mpr c.map.sorted⟩
  globalOptions := .empty
  displays := .empty

def cellOptions (c : Config) : List (Name × ScreenOptions) := c.map.entries.map fun e => (e.1, e.2.options)

lemma foldl_addCell (c : Config) (es : List (Name × ScreenOptions)) :
    es.foldl (fun c e => c.addCell e.1 e.2) c =
      { c with
        map := (es.map fun e => (e.1, (⟨.empty, e.2⟩ : Cell))).foldl (fun m e => m.insert e.1 e.2) c.map
        nameToCanonicalName := (es.map fun e => (e.1, e.1)).foldl (fun m e => m.insert e.1 e.2) c.nameToCanonicalName } := by
  induction es generalizing c with
  | nil => rfl
  | cons e es ih => exact ih (c.addCell e.1 e.2)

lemma foldl_addCell_bare (c : Config) : c.cellOptions.foldl (fun c e => c.addCell e.1 e.2) .empty = c.bare := by
  have hmap : (c.cellOptions.map fun e => (e.1, (⟨.empty, e.2⟩ : Cell))) = c.bare.map.entries := by
    rw [cellOptions, List.map_map]
    rfl
  have hnames : (c.cellOptions.map fun e => (e.1, e.1)) = c.bare.nameToCanonicalName.entries := by
    rw [cellOptions, List.map_map]
    rfl
  rw [foldl_addCell, hmap, hnames, empty, OrdMap.foldl_insert_entries, OrdMap.foldl_insert_entries]
  rfl

lemma StoredInv.key {c : Config} (hinv : c.StoredInv) {e : Name × Cell} (he : e ∈ c.map.entries) :
    c.map.find? e.1 = some e.2 ∧ c.getCanonicalName e.1 = e.1 ∧ Reading.isValidScreenName e.1 = true := by
  have hstored := hinv.stored e.1 (List.mem_map_of_mem he)
  exact ⟨OrdMap.find?_eq_some.mpr ⟨e.1, rfl, he⟩, (getCanonicalName_of_mem hstored).2, hinv.validNames _ hstored⟩

lemma StoredInv.writeScreens_eq {c : Config} (hinv : c.StoredInv) :
    c.writeScreens = c.cellOptions.flatMap fun e => screenLines e.1 e.2 := by
  rw [writeScreens, cellOptions, List.flatMap_map]
  apply List.flatMap_congr
  intro e he
  obtain ⟨hfind, -, hvalid⟩ := hinv.key he
  rw [getOptions, if_neg (isNameChar_of_valid hvalid).1, hfind]
  rfl

/-- The section of screens is always read again, with all options. -/
theorem StoredInv.runFrom_screens {c : Config} (hinv : c.StoredInv) (resolves : Name → Bool) :
    ∃ screen, runFrom (Reading.next resolves) (sectionLines .screens c.writeScreens) .start =
      some ⟨⟨⟨c.bare, []⟩, none⟩, none, screen⟩ := by
  have hrun : runFrom (Reading.next resolves) c.writeScreens { Reading.start with inside := some .screens, screen := [] } =
      some (addCells { Reading.start with inside := some .screens, screen := [] } c.cellOptions) := by
    rw [hinv.writeScreens_eq]
    apply InputLeap.runFrom_screens rfl
    · intro e he
      obtain ⟨d, hd, rfl⟩ := List.mem_map.mp he
      exact (hinv.key hd).2.2
    · intro e he
      obtain ⟨d, hd, rfl⟩ := List.mem_map.mp he
      exact hinv.screenOptions d hd
    · exact fun _ _ => ⟨rfl, rfl⟩
    · exact List.pairwise_map.mpr (c.map.sorted.imp fun h => h.ne)
  have hcells (es : List (Name × ScreenOptions)) (s : Reading) :
      ∃ screen, addCells s es = { s.setConfig (es.foldl (fun c e => c.addCell e.1 e.2) s.config) with screen := screen } := by
    induction es generalizing s with
    | nil => exact ⟨s.screen, rfl⟩
    | cons e es ih => exact ih (s.withCell e.1 e.2)
  obtain ⟨screen, hscreen⟩ := hcells c.cellOptions { Reading.start with inside := some .screens, screen := [] }
  rw [runFrom_section rfl, hrun]
  · refine ⟨screen, ?_⟩
    rw [hscreen]
    exact congrArg (fun c => some (Reading.mk ⟨⟨c, []⟩, none⟩ none screen)) c.foldl_addCell_bare
  · intro t ht
    rw [hrun] at ht
    obtain rfl := Option.some.inj ht
    rw [hscreen]
    rfl

end Config

section GlobalOptions

variable {resolves : Name → Bool} {s : Reading}

lemma next_globalOption {row : String × OptionID × OptionKind} (hrow : row ∈ globalOptions) {text value rest : Name}
    (htext : LineText text) (hparse : parseNameWithArgs "value" [',', ';', '\n'] (' ' :: text) = .ok (value, [], rest))
    (hrest : rest.head? ≠ some ',' ∧ rest.head? ≠ some ';') (hinside : s.inside = some .options) :
    s.next resolves (['\t'] ++ (row.1.toList ++ " = ".toList ++ text)) =
      (row.2.2.parse value).toOption.map (s.addOption [] row.2.1) := by
  obtain ⟨-, -, hword, haddress, -⟩ := globalOptions_printed row hrow
  obtain ⟨hne, hchars⟩ := isOptionWord_iff hword
  have hline := optionLine_lineText hne hchars htext
  have hnot : row.1.toList ≠ "address".toList := fun h => haddress (String.toList_injective h)
  rw [next_content hinside (by decide) hline.clean (optionLine_ne_end _ _), Reading.readContent, Reading.readOptionLine,
    parse_optionName hne hchars]
  change (parseNameWithArgs "value" _ (' ' :: text) >>= _).toOption = _
  rw [hparse]
  change (s.handleOption resolves row.1.toList value >>= _).toOption = _
  rw [Reading.handleOption, if_neg hnot, optionNamed_row options_nodup.2 hrow]
  dsimp only
  cases row.2.2.parse value with
  | error e => rfl
  | ok v =>
    change (if rest.head? = some ',' ∨ rest.head? = some ';' then _ else _ : Except String Reading).toOption = _
    rw [if_neg (not_or.mpr hrest)]
    rfl

/-- What is left of an option of the server when it is written and read again. The options of the fork are not written,
and of the corners only the first word is read. -/
def reread (option : OptionID × OptionValue) : Option (OptionID × OptionValue) :=
  if isUnnamed option.1 then none
  else if option.1 = kOptionScreenSwitchCorners then some (option.1, kNoCornerMask)
  else some option

variable (resolves) in
lemma next_option {option : OptionID × OptionValue} (hknown : Config.KnownOption globalOptions option)
    (hinside : s.inside = some .options) :
    (writeOption ['\t'] option = none ∧ reread option = none ∧ option.1 ≠ kOptionClipboardSharingSize) ∨
    ∃ line, writeOption ['\t'] option = some line ∧
      (option.1 = kOptionClipboardSharingSize ∧ s.next resolves line = none ∨
      option.1 ≠ kOptionClipboardSharingSize ∧
        ∃ o, reread option = some o ∧ s.next resolves line = some (s.addOption [] o.1 o.2)) := by
  obtain ⟨row, hrow, hid, hvalid⟩ := hknown
  obtain ⟨hname, hkind, -, -, hcorners, hclipboard⟩ := globalOptions_printed row hrow
  obtain ⟨id, v⟩ := option
  dsimp only at hid hvalid ⊢
  subst hid
  by_cases hunnamed : isUnnamed row.2.1 = true
  · rw [if_pos hunnamed] at hname
    refine .inl ⟨?_, if_pos hunnamed, ?_⟩
    · rw [writeOption, getOptionName_eq, hname]
      rfl
    · intro hid
      rw [(hclipboard hid).2] at hunnamed
      nomatch hunnamed
  · rw [if_neg hunnamed] at hname
    refine .inr ⟨_, writeOption_eq hname hkind _ v, ?_⟩
    by_cases hid : row.2.1 = kOptionClipboardSharingSize
    · -- the size is printed as a boolean and read as a number
      refine .inl ⟨hid, ?_⟩
      have hword := format_word .boolean (by decide) v
      rw [if_pos hid, next_globalOption hrow (format_lineText .boolean v)
        (parse_wordValue hword.1 hword.2 [' '] (by decide)) (by simp) hinside, (hclipboard hid).1]
      have hfail : (parseInt (formatBoolean v)).toOption = none := by
        rw [formatBoolean]
        split_ifs <;> rfl
      exact congrArg (Option.map _) hfail
    · refine .inr ⟨hid, ?_⟩
      rw [if_neg hid]
      by_cases hcorner : row.2.1 = kOptionScreenSwitchCorners
      · refine ⟨_, by rw [reread, if_neg hunnamed, if_pos hcorner], ?_⟩
        obtain ⟨rest, hplus, hparse⟩ := parse_cornersValue v
        have hrest : rest.head? ≠ some ',' ∧ rest.head? ≠ some ';' :=
          ⟨fun h => absurd (hplus _ h) (by decide), fun h => absurd (hplus _ h) (by decide)⟩
        have hkind := hcorners.mp hcorner
        rw [hkind, next_globalOption hrow (format_lineText .corners v) hparse hrest hinside, hkind]
        rfl
      · refine ⟨_, by rw [reread, if_neg hunnamed, if_neg hcorner], ?_⟩
        have hkind : row.2.2 ≠ .corners := hcorners.not.mp hcorner
        have hword := format_word row.2.2 hkind v
        rw [next_globalOption hrow (format_lineText row.2.2 v) (parse_wordValue hword.1 hword.2 [' '] (by decide))
          (by simp) hinside, parse_format hvalid]
        rfl

def addOptions (s : Reading) (os : List (OptionID × OptionValue)) : Reading :=
  os.foldl (fun s o => s.addOption [] o.1 o.2) s

/-- The options of the server are read again unless there is a size for the clipboard. -/
lemma runFrom_options {os : List (OptionID × OptionValue)}
    (hknown : ∀ option ∈ os, Config.KnownOption globalOptions option) (hinside : s.inside = some .options) :
    runFrom (Reading.next resolves) (os.filterMap (writeOption ['\t'])) s =
      if ∀ option ∈ os, option.1 ≠ kOptionClipboardSharingSize then some (addOptions s (os.filterMap reread)) else none := by
  induction os generalizing s with
  | nil => rfl
  | cons option os ih =>
    have hrest := fun o ho => hknown o (List.mem_cons_of_mem option ho)
    rcases next_option resolves (hknown option List.mem_cons_self) hinside with
      ⟨hwrite, hreread, hid⟩ | ⟨line, hwrite, ⟨hid, hnext⟩ | ⟨hid, o, hreread, hnext⟩⟩
    · rw [List.filterMap_cons_none hwrite, List.filterMap_cons_none hreread, ih hrest hinside]
      simp only [List.forall_mem_cons, hid, not_false_eq_true, ne_eq, true_and]
    · rw [List.filterMap_cons_some hwrite, runFrom, hnext, if_neg]
      · rfl
      · intro hall
        exact hall option List.mem_cons_self hid
    · have hinside' : (s.addOption [] o.1 o.2).inside = some .options := hinside
      rw [List.filterMap_cons_some hwrite, List.filterMap_cons_some hreread, runFrom, hnext, Option.bind_some,
        ih hrest hinside']
      simp only [List.forall_mem_cons, hid, not_false_eq_true, ne_eq, true_and]
      rfl

end GlobalOptions

end InputLeap
