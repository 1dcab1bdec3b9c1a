import InputLeap.Server.FileReread

/-! The options of a file that is written and read again. They come back if all that is written can be read at all, and
no option is set that is left out, cut short or written in another way. -/

namespace InputLeap

open InputLeap.Lib InputLeap.Lib.Text

section Lines

def LineChars (line : Name) : Prop := ∀ ch ∈ line, isLineChar ch = true

lemma LineChars.append {s t : Name} (hs : LineChars s) (ht : LineChars t) : LineChars (s ++ t) :=
  fun ch hch => (List.mem_append.mp hch).elim (hs ch) (ht ch)

lemma lineChars_of_name {name : Name} (h : ∀ ch ∈ name, isNameChar ch = true) : LineChars name := by
  intro ch hch
  have hword := isWordChar_iff (isWordChar_of_isNameChar (h ch hch))
  exact isLineChar_of_isGraph hword.1 hword.2.2.1

lemma lineChars_header {name : Name} (h : ∀ ch ∈ name, isNameChar ch = true) : LineChars (header name) :=
  LineChars.append (s := '\t' :: name)
    (LineChars.append (s := ['\t']) (by unfold LineChars; decide) (lineChars_of_name h)) (by unfold LineChars; decide)

lemma lineChars_option {indent line : Name} {option : OptionID × OptionValue} (hindent : LineChars indent)
    (h : writeOption indent option = some line) : LineChars line := by
  rw [writeOption] at h
  split at h
  · cases h
  · rename_i name hname
    dsimp only at h
    split_ifs at h
    obtain rfl := Option.some.inj h
    have hnames : ∀ e ∈ optionNames, ∀ ch ∈ e.2.toList, isLineChar ch = true := by decide +kernel
    have hvalue : LineChars (getOptionValue option.1 option.2) := by
      rw [getOptionValue]
      cases printedAs option.1 with
      | none => exact List.forall_mem_nil _
      | some kind => exact (format_lineText kind option.2).chars
    obtain ⟨e, he, rfl⟩ := Option.map_eq_some_iff.mp hname
    have hname := hnames e (List.mem_of_find?_eq_some he)
    exact ((hindent.append hname).append (by unfold LineChars; decide)).append hvalue

lemma lineChars_section {sect : SectionName} {lines : List Name} (h : ∀ line ∈ lines, LineChars line) :
    ∀ line ∈ sectionLines sect lines, LineChars line := by
  intro line hline
  rw [sectionLines, List.mem_append, List.mem_cons, List.mem_singleton] at hline
  rcases hline with (rfl | hline) | rfl
  · unfold LineChars
    cases sect <;> decide
  · exact h line hline
  · unfold LineChars
    decide

lemma lineChars_interval (start stop : ℚ) : LineChars (formatInterval start stop) := by
  intro ch hch
  obtain ⟨hgraph, -, hcomment⟩ := (formatInterval_chars start stop).1 ch hch
  exact isLineChar_of_isGraph hgraph hcomment

lemma lineChars_rule {s : Name} (h : ∀ ch ∈ s, isRuleChar ch = true) : LineChars s := by
  intro ch hch
  obtain ⟨hgraph, -, hcomment⟩ := isRuleChar_iff.mp (h ch hch)
  exact isLineChar_of_isGraph hgraph hcomment

lemma mem_writeAliases {screen line : Name} {l : List (Name × Name × Name)} (h : line ∈ Config.writeAliases screen l) :
    ∃ a ∈ l, line = header a.2.1 ∨ line = "\t\t".toList ++ a.2.2 := by
  induction l generalizing screen with
  | nil => cases h
  | cons a l ih =>
    obtain ⟨key, canonical, name⟩ := a
    have hrest (h : line ∈ Config.writeAliases canonical l) :
        ∃ a ∈ (key, canonical, name) :: l, line = header a.2.1 ∨ line = "\t\t".toList ++ a.2.2 := by
      obtain ⟨a, ha, hline⟩ := ih h
      exact ⟨a, List.mem_cons_of_mem _ ha, hline⟩
    rw [Config.writeAliases] at h
    split_ifs at h with hsame
    · rcases List.mem_cons.mp h with rfl | h
      · exact ⟨_, List.mem_cons_self, .inl rfl⟩
      · rcases List.mem_cons.mp h with rfl | h
        · exact ⟨_, List.mem_cons_self, .inr rfl⟩
        · exact hrest h
    · rcases List.mem_cons.mp h with rfl | h
      · exact ⟨_, List.mem_cons_self, .inr rfl⟩
      · rw [← not_not.mp hsame] at h
        exact hrest h

variable {file : StoredConfig}

lemma StoredConfig.ReadInv.rule_chars (hfile : file.ReadInv) {rule : Rule} (h : rule ∈ file.rules) {text : Name}
    (htext : rule.format = some text) : LineChars ('\t' :: text) := by
  obtain ⟨⟨condition, hsome, hcondition⟩, hactions⟩ := hfile.rules rule h
  obtain ⟨_, as, ds⟩ := rule
  dsimp only at hsome
  subst hsome
  obtain ⟨ctext, ts, us, hctext, hts, hus, rfl⟩ := Rule.format_cases htext
  rw [Condition.format_eq] at hctext
  have hrule := (hcondition.readableCall hfile.config).ruleText hctext
  have htsText := written_ruleText hfile.config hts fun a ha => hactions a (List.mem_append_left _ ha)
  have husText := written_ruleText hfile.config hus fun d hd => hactions d (List.mem_append_right _ hd)
  have hvalue : LineChars (valueText ts us) := by
    by_cases hne : ts ≠ [] ∨ us ≠ []
    · exact (valueText_ruleText htsText husText hne).chars
    · obtain ⟨rfl, rfl⟩ : ts = [] ∧ us = [] := by
        rwa [not_or, not_not, not_not] at hne
      exact List.forall_mem_nil _
  have hequals : LineChars " = ".toList := by unfold LineChars; decide
  exact LineChars.append (s := ['\t']) (by unfold LineChars; decide)
    ((LineChars.append hrule.chars hequals).append hvalue)

lemma StoredConfig.ReadInv.line_chars (hfile : file.ReadInv) {rules : List Name} (hrules : formatRules file.rules = some rules) :
    ∀ line ∈ file.lines rules, LineChars line := by
  have hinv := hfile.config
  have hkey {e : Name × Cell} (he : e ∈ file.config.map.entries) : ∀ ch ∈ e.1, isNameChar ch = true :=
    (isNameChar_of_valid (hinv.key he).2.2).2
  have hindent : LineChars "\t\t".toList := by unfold LineChars; decide
  have hscreens : ∀ line ∈ file.config.writeScreens, LineChars line := by
    intro line hline
    rw [hinv.writeScreens_eq] at hline
    obtain ⟨e, he, hline⟩ := List.mem_flatMap.mp hline
    obtain ⟨d, hd, rfl⟩ := List.mem_map.mp he
    rcases List.mem_cons.mp hline with rfl | hline
    · exact lineChars_header (hkey hd)
    · obtain ⟨option, -, hwrite⟩ := List.mem_filterMap.mp hline
      exact lineChars_option hindent hwrite
  have hlinks : ∀ line ∈ file.config.writeLinks, LineChars line := by
    intro line hline
    rw [hinv.writeLinks_eq] at hline
    obtain ⟨e, he, hline⟩ := List.mem_flatMap.mp hline
    rcases List.mem_cons.mp hline with rfl | hline
    · exact lineChars_header (hkey he)
    · obtain ⟨link, hlink, rfl⟩ := List.mem_map.mp hline
      have hdir := lineChars_rule (dirName_chars link.1.side)
      have hname := lineChars_of_name (hinv.destination he hlink).2
      exact ((((hindent.append hdir).append (lineChars_interval _ _)).append (by unfold LineChars; decide)).append
        hname).append (lineChars_interval _ _)
  have haliases : ∀ line ∈ Config.writeAliases [] file.config.aliases, LineChars line := by
    intro line hline
    obtain ⟨a, ha, hline⟩ := mem_writeAliases hline
    obtain ⟨hmem, -⟩ := Config.mem_aliases ha
    rcases hline with rfl | rfl
    · exact lineChars_header (hinv.canonical (List.mem_map_of_mem hmem)).1.2
    · exact hindent.append (lineChars_of_name (isNameChar_of_valid (hinv.validNames _ hmem)).2)
  have hdisplays : ∀ line ∈ file.config.writeDisplays, LineChars line := by
    intro line hline
    obtain ⟨e, he, rfl⟩ := List.mem_map.mp hline
    obtain ⟨⟨hne, hchars⟩, -⟩ := hinv.canonical (hinv.displayNames e he)
    have hclean := displaysLine_clean e.2 hne fun ch hch => isWordChar_of_isNameChar (hchars ch hch)
    exact LineChars.append (s := ['\t']) (by unfold LineChars; decide) hclean.chars
  have hoptions : ∀ line ∈ file.writeOptions rules, LineChars line := by
    intro line hline
    rw [StoredConfig.writeOptions, List.mem_append, List.mem_append] at hline
    rcases hline with (hline | hline) | hline
    · obtain ⟨option, -, hwrite⟩ := List.mem_filterMap.mp hline
      exact lineChars_option (by unfold LineChars; decide) hwrite
    · obtain ⟨host, hhost, rfl⟩ := List.mem_map.mp hline
      refine LineChars.append (by unfold LineChars; decide) fun ch hch => ?_
      obtain ⟨hgraph, -, -, -, hcomment⟩ := isValueChar_iff (hfile.address host (Option.mem_toList.mp hhost) ch hch)
      exact isLineChar_of_isGraph hgraph hcomment
    · obtain ⟨rule, hrule, hformat⟩ := forall₂_mem (forall₂_of_mapM hrules) line hline
      obtain ⟨text, htext, rfl⟩ := Option.map_eq_some_iff.mp hformat
      exact hfile.rule_chars hrule htext
  intro line hline
  rw [StoredConfig.lines] at hline
  simp only [List.mem_append] at hline
  rcases hline with (((hline | hline) | hline) | hline) | hline
  · exact lineChars_section hscreens line hline
  · exact lineChars_section hlinks line hline
  · split_ifs at hline
    · exact lineChars_section haliases line hline
    · cases hline
  · split_ifs at hline
    · cases hline
    · exact lineChars_section hdisplays line hline
  · exact lineChars_section hoptions line hline

lemma StoredConfig.ReadInv.getlines_writeConfig (hfile : file.ReadInv) {rules : List Name}
    (hrules : formatRules file.rules = some rules) : getlines [] (unlines (file.lines rules)) = file.lines rules := by
  apply getlines_unlines
  intro line hline hmem
  exact absurd (hfile.line_chars hrules line hline '\n' hmem) (by decide)

end Lines

section Options

/-- An option of the server that has a name, and is read from all of its text. -/
def KeptOption (option : OptionID × OptionValue) : Prop :=
  isUnnamed option.1 = false ∧ (option.1 = kOptionScreenSwitchCorners → option.2 = kNoCornerMask)

instance (option : OptionID × OptionValue) : Decidable (KeptOption option) := inferInstanceAs (Decidable (_ ∧ _))

lemma reread_eq_some_iff {option : OptionID × OptionValue} : reread option = some option ↔ KeptOption option := by
  obtain ⟨id, v⟩ := option
  rw [reread, KeptOption]
  split_ifs with hunnamed hcorners
  · simp [hunnamed]
  · rw [Option.some.injEq, Prod.mk.injEq]
    exact ⟨fun h => ⟨Bool.not_eq_true _ ▸ hunnamed, fun _ => h.2.symm⟩, fun h => ⟨rfl, (h.2 hcorners).symm⟩⟩
  · exact iff_of_true rfl ⟨Bool.not_eq_true _ ▸ hunnamed, fun h => absurd h hcorners⟩

lemma reread_fst {option o : OptionID × OptionValue} (h : reread option = some o) : o.1 = option.1 := by
  rw [reread] at h
  split_ifs at h
  · obtain rfl := Option.some.inj h
    rfl
  · obtain rfl := Option.some.inj h
    rfl

namespace Config

variable {c : Config}

lemma mem_rereadOptions {o : OptionID × OptionValue} :
    o ∈ c.rereadOptions.entries ↔ ∃ option ∈ c.globalOptions.entries, reread option = some o := by
  have hdistinct : (c.globalOptions.entries.filterMap reread).Pairwise fun a b => a.1 ≠ b.1 := by
    rw [List.pairwise_filterMap]
    apply c.globalOptions.sorted.imp
    intro a b hlt a' ha b' hb heq
    apply hlt.ne
    exact (reread_fst ha).symm.trans (heq.trans (reread_fst hb))
  rw [rereadOptions, OrdMap.mem_foldl_insert (fun _ _ => rfl) hdistinct, List.mem_filterMap]
  constructor
  · rintro (h | h)
    · exact h
    · cases h
  · exact .inl

lemma rereadOptions_eq_iff :
    c.rereadOptions = c.globalOptions ↔ ∀ option ∈ c.globalOptions.entries, KeptOption option := by
  constructor
  · intro heq option hoption
    rw [← heq] at hoption
    obtain ⟨option', hoption', hread⟩ := mem_rereadOptions.mp hoption
    rw [heq] at hoption
    obtain rfl := OrdMap.entry_unique hoption hoption' (reread_fst hread)
    exact reread_eq_some_iff.mp hread
  · intro hkept
    apply OrdMap.ext_mem
    intro o
    rw [mem_rereadOptions]
    constructor
    · rintro ⟨option, hoption, hread⟩
      rw [reread_eq_some_iff.mpr (hkept option hoption)] at hread
      obtain rfl := Option.some.inj hread
      exact hoption
    · intro ho
      exact ⟨o, ho, reread_eq_some_iff.mpr (hkept o ho)⟩

end Config

end Options

section Rules

def ReadableKey (key : KeyID) (mask : KeyModifierMask) : Prop :=
  if key = KeyNames.kKeyAltGr then mask &&& KeyNames.keyModifierAltGr = 0 else KeyNames.Printable key

instance (key : KeyID) (mask : KeyModifierMask) : Decidable (ReadableKey key mask) :=
  inferInstanceAs (Decidable (if key = KeyNames.kKeyAltGr then _ = _ else KeyNames.Printable key))

def Condition.KeyReadable : Condition → Prop
  | keystroke key mask => ReadableKey key mask
  | _ => True

def Action.KeyReadable : Action → Prop
  | keystroke key mask _ _ => ReadableKey key mask
  | _ => True

/-- A condition that is written whole, and of which the key can be read. -/
def Condition.Readable (condition : Condition) : Prop := Whole (callText condition.call) ∧ condition.KeyReadable

def Action.Readable (a : Action) : Prop := Whole (callText a.call) ∧ a.KeyReadable

structure Rule.Readable (r : Rule) : Prop where
  nonempty : r.actions ≠ []
  condition : ∀ condition ∈ r.condition, condition.Readable
  actions : ∀ a ∈ r.actions, a.Readable

instance (condition : Condition) : Decidable condition.KeyReadable :=
  match condition with
  | .keystroke _ _ => inferInstanceAs (Decidable (ReadableKey _ _))
  | .mouseButton _ _ => .isTrue trivial
  | .screenConnected _ => .isTrue trivial

instance (a : Action) : Decidable a.KeyReadable :=
  match a with
  | .keystroke _ _ _ _ => inferInstanceAs (Decidable (ReadableKey _ _))
  | .switchToScreen _ => .isTrue trivial
  | .keyboardBroadcast _ _ => .isTrue trivial
  | .lockCursorToScreen _ => .isTrue trivial
  | .toggleScreen => .isTrue trivial
  | .switchInDirection _ => .isTrue trivial
  | .mouseButton _ _ _ => .isTrue trivial

instance (condition : Condition) : Decidable condition.Readable := inferInstanceAs (Decidable (_ ∧ _))

instance (a : Action) : Decidable a.Readable := inferInstanceAs (Decidable (_ ∧ _))

instance (r : Rule) : Decidable r.Readable :=
  decidable_of_iff (r.actions ≠ [] ∧ (∀ condition ∈ r.condition, condition.Readable) ∧ ∀ a ∈ r.actions, a.Readable)
    ⟨fun ⟨hne, hcondition, hactions⟩ => ⟨hne, hcondition, hactions⟩, fun h => ⟨h.nonempty, h.condition, h.actions⟩⟩

lemma Rule.Readable.whole {r : Rule} (h : r.Readable) : r.Whole :=
  ⟨fun condition hcondition => (h.condition condition hcondition).1, fun a ha => (h.actions a ha).1⟩

lemma rereadKey_isSome {key : KeyID} {mask : KeyModifierMask} : (rereadKey key mask).isSome ↔ ReadableKey key mask := by
  rw [rereadKey, ReadableKey]
  split_ifs <;> simp_all

variable {c : Config}

lemma Condition.readBack_isSome {condition : Condition} : (condition.readBack c).isSome ↔ condition.KeyReadable := by
  cases condition with
  | keystroke key mask =>
    rw [Condition.readBack, Option.isSome_map]
    exact rereadKey_isSome
  | mouseButton button mask => exact iff_of_true rfl trivial
  | screenConnected screen => exact iff_of_true rfl trivial

lemma Condition.reread_isSome {condition : Condition} : (condition.reread c).isSome ↔ condition.Readable := by
  rw [Condition.reread, Condition.Readable, ← Condition.readBack_isSome (c := c)]
  split_ifs with hwhole
  · exact (and_iff_right hwhole).symm
  · exact iff_of_false Bool.false_ne_true fun h => hwhole h.1

lemma Action.readBack_isSome {a : Action} : (a.readBack c).isSome ↔ a.KeyReadable := by
  cases a with
  | keystroke key mask screens press =>
    rw [Action.readBack, Option.isSome_map]
    exact rereadKey_isSome
  | _ => exact iff_of_true rfl trivial

lemma Action.reread_isSome {a : Action} : (a.reread c).isSome ↔ a.Readable := by
  rw [Action.reread, Action.Readable, ← Action.readBack_isSome (c := c)]
  split_ifs with hwhole
  · exact (and_iff_right hwhole).symm
  · exact iff_of_false Bool.false_ne_true fun h => hwhole h.1

lemma isSome_mapM {α β : Type} {f : α → Option β} {l : List α} : (l.mapM f).isSome ↔ ∀ a ∈ l, (f a).isSome := by
  induction l with
  | nil => simp
  | cons a l ih =>
    rw [List.forall_mem_cons, ← ih, List.mapM_cons]
    cases f a with
    | none => simp
    | some b =>
      cases l.mapM f with
      | none => simp
      | some bs => simp

lemma Rule.reread_isSome {r : Rule} (h : r.Stored c) (d : Config) : (r.reread d).isSome ↔ r.Readable := by
  obtain ⟨⟨condition, hsome, -⟩, -⟩ := h
  obtain ⟨_, as, ds⟩ := r
  dsimp only at hsome
  subst hsome
  have hactions {l : List Action} : (l.mapM (Action.reread d)).isSome ↔ ∀ a ∈ l, a.Readable :=
    isSome_mapM.trans (forall₂_congr fun a _ => Action.reread_isSome)
  rw [Rule.reread]
  constructor
  · intro hread
    split_ifs at hread with hempty
    · cases hread
    · obtain ⟨r', hr'⟩ := Option.isSome_iff_exists.mp hread
      obtain ⟨condition', hcondition, hr'⟩ := Option.bind_eq_some_iff.mp hr'
      obtain ⟨bs, hbs, hr'⟩ := Option.bind_eq_some_iff.mp hr'
      obtain ⟨es, hes, -⟩ := Option.map_eq_some_iff.mp hr'
      refine ⟨hempty, ?_, ?_⟩
      · rintro _ ⟨⟩
        exact Condition.reread_isSome.mp (Option.isSome_iff_exists.mpr ⟨condition', hcondition⟩)
      · intro a ha
        rcases List.mem_append.mp ha with ha | ha
        · exact hactions.mp (Option.isSome_iff_exists.mpr ⟨bs, hbs⟩) a ha
        · exact hactions.mp (Option.isSome_iff_exists.mpr ⟨es, hes⟩) a ha
  · rintro ⟨hempty, hcondition, hreadable⟩
    have hcondition' : (condition.reread d).isSome := Condition.reread_isSome.mpr (hcondition condition rfl)
    obtain ⟨condition', hcondition'⟩ := Option.isSome_iff_exists.mp hcondition'
    have has : (as.mapM (Action.reread d)).isSome := hactions.mpr fun a ha => hreadable a (List.mem_append_left _ ha)
    have hds : (ds.mapM (Action.reread d)).isSome := hactions.mpr fun a ha => hreadable a (List.mem_append_right _ ha)
    obtain ⟨bs, hbs⟩ := Option.isSome_iff_exists.mp has
    obtain ⟨es, hes⟩ := Option.isSome_iff_exists.mp hds
    rw [if_neg hempty]
    dsimp only
    rw [Option.bind_some, hcondition', Option.bind_some, hbs, Option.bind_some, hes]
    rfl

end Rules

section Address

def ReadableAddress (resolves : Name → Bool) (address : Option Name) : Prop :=
  ∀ host ∈ address, host ≠ [] ∧ (NetworkAddress.listenHost resolves host).isSome = true

instance (resolves : Name → Bool) (address : Option Name) : Decidable (ReadableAddress resolves address) :=
  inferInstanceAs (Decidable (∀ host ∈ address, _))

lemma rereadAddress_isSome {resolves : Name → Bool} {address : Option Name} :
    (rereadAddress resolves address).isSome ↔ ReadableAddress resolves address := by
  cases address with
  | none =>
    refine iff_of_true rfl ?_
    rintro host ⟨⟩
  | some host =>
    rw [rereadAddress]
    split_ifs with hnil
    · refine iff_of_false Bool.false_ne_true ?_
      intro h
      exact (h host rfl).1 hnil
    · rw [Option.isSome_map]
      constructor
      · rintro h _ ⟨⟩
        exact ⟨hnil, h⟩
      · exact fun h => (h host rfl).2

end Address

namespace StoredConfig

/-- There is a text that is written; it can be read, and gives the server and every screen the same options again. -/
def OptionsReread (resolves : Name → Bool) (file : StoredConfig) : Prop :=
  ∃ text, writeConfig file = some text ∧ ∃ file', readConfig resolves text = .ok file' ∧
    ∀ name, file'.config.getOptions name = file.config.getOptions name

/-- No option is set that is lost, cut short or refused, and nothing else that is written is refused. -/
structure OptionsKept (resolves : Name → Bool) (file : StoredConfig) : Prop where
  options : ∀ option ∈ file.config.globalOptions.entries, option.1 ≠ kOptionClipboardSharingSize ∧ KeptOption option
  links : file.config.ReadableLinks
  address : ReadableAddress resolves file.listenAddress
  rules : ∀ rule ∈ file.rules, rule.Readable

instance (resolves : Name → Bool) (file : StoredConfig) : Decidable (file.OptionsKept resolves) :=
  decidable_of_iff ((∀ option ∈ file.config.globalOptions.entries,
      option.1 ≠ kOptionClipboardSharingSize ∧ KeptOption option) ∧ file.config.ReadableLinks ∧
      ReadableAddress resolves file.listenAddress ∧ ∀ rule ∈ file.rules, rule.Readable)
    ⟨fun ⟨hoptions, hlinks, haddress, hrules⟩ => ⟨hoptions, hlinks, haddress, hrules⟩,
      fun h => ⟨h.options, h.links, h.address, h.rules⟩⟩

variable {file : StoredConfig}

lemma getOptions_iff {c d : Config} (hmap : d.map = c.map.mapValues Cell.rounded) :
    (∀ name, d.getOptions name = c.getOptions name) ↔ d.globalOptions = c.globalOptions := by
  constructor
  · intro h
    exact Option.some.inj (h [])
  · intro h name
    rw [Config.getOptions, Config.getOptions, h, hmap, OrdMap.find?_mapValues, Option.map_map]
    rfl

lemma ReadInv.optionsReread_iff (hfile : file.ReadInv) (resolves : Name → Bool) :
    file.OptionsReread resolves ↔ file.OptionsKept resolves := by
  obtain ⟨d, hmap, hglobal, hrun⟩ := hfile.runFrom_lines resolves
  constructor
  · rintro ⟨text, htext, file', hread, hsame⟩
    obtain ⟨lines, hlines, rfl⟩ := Option.map_eq_some_iff.mp htext
    have hrun := hrun lines hlines
    rw [← hfile.getlines_writeConfig hlines] at hrun
    obtain ⟨t, ht, -, rfl⟩ := readConfig_eq_ok.mp hread
    rw [hrun] at ht
    split_ifs at ht with hwritten
    obtain ⟨address, haddress, ht⟩ := Option.bind_eq_some_iff.mp ht
    obtain ⟨rules, hrules, rfl⟩ := Option.map_eq_some_iff.mp ht
    have hoptions : file.config.rereadOptions = file.config.globalOptions :=
      hglobal.symm.trans ((getOptions_iff hmap).mp hsame)
    refine ⟨?_, hwritten.1, rereadAddress_isSome.mp (Option.isSome_iff_exists.mpr ⟨address, haddress⟩), ?_⟩
    · intro option hoption
      exact ⟨hwritten.2 option hoption, Config.rereadOptions_eq_iff.mp hoptions option hoption⟩
    · intro rule hrule
      have hsome := isSome_mapM.mp (Option.isSome_iff_exists.mpr ⟨rules, hrules⟩) rule hrule
      exact (Rule.reread_isSome (hfile.rules rule hrule) d).mp hsome
  · intro hkept
    obtain ⟨lines, hlines⟩ := formatRules_whole hfile.config hfile.rules fun rule hrule => (hkept.rules rule hrule).whole
    have hrun := hrun lines hlines
    rw [← hfile.getlines_writeConfig hlines] at hrun
    obtain ⟨address, haddress⟩ := Option.isSome_iff_exists.mp (rereadAddress_isSome.mpr hkept.address)
    have hrules : (file.rules.mapM (Rule.reread d)).isSome := isSome_mapM.mpr fun rule hrule =>
      (Rule.reread_isSome (hfile.rules rule hrule) d).mpr (hkept.rules rule hrule)
    obtain ⟨rules, hrules⟩ := Option.isSome_iff_exists.mp hrules
    have hoptions := Config.rereadOptions_eq_iff.mpr fun option hoption => (hkept.options option hoption).2
    rw [if_pos ⟨hkept.links, fun option hoption => (hkept.options option hoption).1⟩, haddress, Option.bind_some,
      hrules, Option.map_some] at hrun
    refine ⟨_, Option.map_eq_some_iff.mpr ⟨lines, hlines, rfl⟩, ⟨⟨d, rules⟩, address⟩,
      readConfig_eq_ok.mpr ⟨_, hrun, rfl, rfl⟩, ?_⟩
    exact (getOptions_iff hmap).mpr (hglobal.trans hoptions)

end StoredConfig

def optionFile (options : String) : Name :=
  ("section: screens\na:\nhalfDuplexCapsLock = true\nshift = ctrl\nb:\nswitchCorners = all\nend\n" ++
    "section: links\na:\nright = b\nend\nsection: options\n" ++ options ++ "\nend\n").toList

/-- The texts as lists, which are faster to evaluate. -/
lemma optionFile_eq (options : String) : optionFile options =
    "section: screens\na:\nhalfDuplexCapsLock = true\nshift = ctrl\nb:\nswitchCorners = all\nend\n".toList ++
      "section: links\na:\nright = b\nend\nsection: options\n".toList ++ options.toList ++ "\nend\n".toList := by
  rw [optionFile, String.toList_append, String.toList_append, String.toList_append]

end InputLeap
