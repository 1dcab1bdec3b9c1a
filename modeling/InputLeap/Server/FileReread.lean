import InputLeap.Server.AliasLines
import InputLeap.Server.DisplaysLines
import InputLeap.Server.RulesReread

/-! A whole file as it is written and read again, section by section. Links, rules and the address may be written in a
way that is refused; the other sections never are. -/

namespace InputLeap

open InputLeap.Lib InputLeap.Lib.Text

def Config.AliasWords (c : Config) : Prop := ∀ e ∈ c.nameToCanonicalName.entries, e.1 = e.2 ∨ e.1 ≠ "end".toList

structure StoredConfig.ReadInv (file : StoredConfig) : Prop where
  config : file.config.StoredInv
  rules : ∀ rule ∈ file.rules, rule.Stored file.config
  words : file.config.AliasWords
  address : ∀ host ∈ file.listenAddress, ∀ ch ∈ host, isValueChar ch = true

section Invariants

namespace NetworkAddress

variable {resolves : Name → Bool} {address host : Name}

lemma parseAddress_chars {port port' : ℤ} (h : parseAddress address port = some (host, port')) :
    ∀ ch ∈ host, ch ∈ address := by
  intro ch hch
  unfold parseAddress at h
  dsimp only at h
  split at h
  · rename_i s
    have hbracket : ch ∈ s.takeWhile (fun c => c != ']') → ch ∈ '[' :: s := fun hmem =>
      List.mem_cons_of_mem _ ((List.takeWhile_prefix _).subset hmem)
    split at h
    · cases h
    · obtain ⟨rfl, -⟩ := Prod.mk.inj (Option.some.inj h)
      exact hbracket hch
    · split_ifs at h
      obtain ⟨rfl, -⟩ := Prod.mk.inj (Option.some.inj h)
      exact hbracket hch
  · split at h
    · obtain ⟨rfl, -⟩ := Prod.mk.inj (Option.some.inj h)
      exact hch
    · split_ifs at h
      · obtain ⟨rfl, -⟩ := Prod.mk.inj (Option.some.inj h)
        exact hch
      · obtain ⟨rfl, -⟩ := Prod.mk.inj (Option.some.inj h)
        exact (List.takeWhile_prefix _).subset hch

lemma listenHost_chars (h : listenHost resolves address = some host) : ∀ ch ∈ host, ch ∈ address := by
  obtain ⟨⟨parsed, port⟩, hparse, h⟩ := Option.bind_eq_some_iff.mp h
  dsimp only at h
  split_ifs at h
  obtain rfl := Option.some.inj h
  exact parseAddress_chars hparse

end NetworkAddress

namespace Reading

variable {resolves : Name → Bool} {s t : Reading}

lemma Step.aliasWords (h : Step resolves s t) (hinv : s.config.AliasWords) : t.config.AliasWords := by
  intro e he
  cases h with
  | skip | enter | leave | address | rule | header | displays => exact hinv e he
  | option | screenOption => exact hinv e ((Config.keys_addOption _ _ _ _).2 ▸ he)
  | link _ _ h => exact hinv e ((Config.keys_connect h).2 ▸ he)
  | addScreen _ h =>
    rcases (Config.mem_names_addScreen h).mp he with rfl | he
    · exact .inl rfl
    · exact hinv e he
  | addAlias _ h _ _ hend =>
    rcases ((Config.addAlias_eq_some h).2 e).mp he with rfl | he
    · exact .inr hend
    · exact hinv e he

lemma Step.listenAddress (h : Step resolves s t)
    (hinv : ∀ host ∈ s.listenAddress, ∀ ch ∈ host, isValueChar ch = true) :
    ∀ host ∈ t.listenAddress, ∀ ch ∈ host, isValueChar ch = true := by
  cases h with
  | address hvalue hhost =>
    rintro _ ⟨⟩ ch hch
    exact hvalue ch (NetworkAddress.listenHost_chars hhost ch hch)
  | _ => exact hinv

end Reading

theorem readConfig_readInv {resolves : Name → Bool} {text : Name} {file : StoredConfig}
    (h : readConfig resolves text = .ok file) : file.ReadInv := by
  obtain ⟨t, ⟨hwords, haddress⟩, rfl⟩ := readConfig_invariant
    (I := fun s => s.config.AliasWords ∧ ∀ host ∈ s.listenAddress, ∀ ch ∈ host, isValueChar ch = true)
    (by constructor <;> rintro _ ⟨⟩)
    (fun _ _ hs hstep => ⟨hstep.aliasWords hs.1, hstep.listenAddress hs.2⟩) h
  exact ⟨readConfig_storedInv h, readConfig_storedRules h, hwords, haddress⟩

end Invariants

section Aliases

variable {resolves : Name → Bool} {s : Reading} {c : Config}

structure WrittenAlias (c : Config) (a : Name × Name × Name) : Prop extends Alias c a.2.1 a.2.2 where
  screenName : a.2.1 ≠ [] ∧ ∀ ch ∈ a.2.1, isNameChar ch = true
  isScreen : c.isScreen a.2.1 = true
  isCanonical : c.isCanonicalName a.2.1 = true
  contains : c.map.contains a.2.1 = true

lemma WrittenAlias.withNames {a d : Name × Name × Name} (ha : WrittenAlias c a) (hd : WrittenAlias c d)
    (hne : caseless d.2.2 ≠ caseless a.2.2) : WrittenAlias (c.withNames [(d.2.2, d.2.1)]) a := by
  have hscreen : ∀ e ∈ [(d.2.2, d.2.1)], caseless e.1 ≠ caseless a.2.1 := by
    intro e he heq
    rw [List.mem_singleton.mp he] at heq
    obtain ⟨n, hn, hkey⟩ := OrdMap.contains_iff.mp ha.isScreen
    exact (OrdMap.contains_eq_false.mp hd.fresh) n.1 n.2 hn (hkey.trans heq.symm)
  have hname : ∀ e ∈ [(d.2.2, d.2.1)], caseless e.1 ≠ caseless a.2.2 := by
    intro e he
    rwa [List.mem_singleton.mp he]
  refine ⟨ha.toAlias.withNames hname, ha.screenName, (Config.isScreen_withNames hscreen).trans ha.isScreen, ?_,
    ha.contains⟩
  rw [Config.isCanonicalName, Config.getCanonicalName_withNames hscreen]
  exact ha.isCanonical

variable (resolves) in
lemma runFrom_writeAliases (hinside : s.inside = some .aliases) {l : List (Name × Name × Name)}
    (hl : ∀ a ∈ l, WrittenAlias s.config a) (hdistinct : l.Pairwise fun a b => caseless a.2.2 ≠ caseless b.2.2) :
    ∃ screen, runFrom (Reading.next resolves) (Config.writeAliases s.screen l) s =
      some { s.setConfig (s.config.withNames (l.map fun a => (a.2.2, a.2.1))) with screen := screen } := by
  induction l generalizing s with
  | nil => exact ⟨s.screen, rfl⟩
  | cons a l ih =>
    obtain ⟨hfirst, hrest⟩ := List.pairwise_cons.mp hdistinct
    have ha := hl a List.mem_cons_self
    have hne := ha.screenName.1
    -- behind the line of the alias, its screen is the one whose aliases are read
    have hread : runFrom (Reading.next resolves) (("\t\t".toList ++ a.2.2) :: Config.writeAliases a.2.1 l)
        { s with screen := a.2.1 } =
          runFrom (Reading.next resolves) (Config.writeAliases a.2.1 l)
            ({ s with screen := a.2.1 }.setConfig (s.config.withNames [(a.2.2, a.2.1)])) := by
      rw [runFrom, next_alias (s := { s with screen := a.2.1 }) hinside rfl hne ha.valid ha.word ha.fresh ha.contains,
        Option.bind_some]
    obtain ⟨screen, hrun⟩ := ih
      (s := { s with screen := a.2.1 }.setConfig (s.config.withNames [(a.2.2, a.2.1)])) hinside
      (fun d hd => (hl d (List.mem_cons_of_mem a hd)).withNames ha (hfirst d hd)) hrest
    replace hread := hread.trans hrun
    refine ⟨screen, ?_⟩
    have hnames : s.config.withNames ((a :: l).map fun a => (a.2.2, a.2.1)) =
        (s.config.withNames [(a.2.2, a.2.1)]).withNames (l.map fun a => (a.2.2, a.2.1)) :=
      Config.withNames_append s.config [(a.2.2, a.2.1)] _
    rw [hnames]
    obtain ⟨key, canonical, name⟩ := a
    rw [Config.writeAliases]
    dsimp only
    split_ifs with hsame
    · rw [runFrom, next_aliasHeader hinside ha.screenName ha.isScreen ha.isCanonical, Option.bind_some]
      exact hread
    · obtain rfl : canonical = s.screen := not_not.mp hsame
      exact hread

end Aliases

namespace Config

variable {c : Config}

def otherNames (c : Config) : List (Name × Name) := c.nameToCanonicalName.entries.filter fun e => decide (e.1 ≠ e.2)

lemma aliases_perm (c : Config) : c.aliases.Perm (c.otherNames.map fun e => (caseless e.2, e.2, e.1)) := by
  have hperm := MultiMap.foldl_insert_perm (fun e : Name × Name => caseless e.2) (fun e => (e.2, e.1)) c.otherNames []
  rwa [List.append_nil] at hperm

lemma mem_aliases {a : Name × Name × Name} (h : a ∈ c.aliases) :
    (a.2.2, a.2.1) ∈ c.nameToCanonicalName.entries ∧ a.2.2 ≠ a.2.1 := by
  obtain ⟨e, he, rfl⟩ := List.mem_map.mp (c.aliases_perm.mem_iff.mp h)
  obtain ⟨hmem, hne⟩ := List.mem_filter.mp he
  exact ⟨hmem, of_decide_eq_true hne⟩

lemma aliases_distinct (c : Config) : c.aliases.Pairwise fun a b => caseless a.2.2 ≠ caseless b.2.2 := by
  rw [c.aliases_perm.pairwise_iff fun h => h.symm, List.pairwise_map]
  exact (c.nameToCanonicalName.sorted.imp fun h => h.ne).sublist List.filter_sublist

lemma StoredInv.mem_keys (hinv : c.StoredInv) {name : Name} (h : (name, name) ∈ c.nameToCanonicalName.entries) :
    name ∈ c.keys := by
  obtain ⟨key, hkey, hsame⟩ := contains_iff_key.mp (hinv.known _ h)
  obtain ⟨rfl, -⟩ := Prod.mk.inj (OrdMap.entry_unique (hinv.stored key hkey) h hsame)
  exact hkey

lemma StoredInv.writtenAlias (hinv : c.StoredInv) (hwords : c.AliasWords) {a : Name × Name × Name} (h : a ∈ c.aliases) :
    WrittenAlias c.linked a := by
  obtain ⟨hmem, hne⟩ := mem_aliases h
  obtain ⟨key, hkey, hsame⟩ := contains_iff_key.mp (hinv.known _ hmem)
  obtain ⟨hchars, -⟩ := hinv.canonical (List.mem_map_of_mem hmem)
  have hbare : (key, key) ∈ c.linked.nameToCanonicalName.entries := by
    obtain ⟨cell, hcell⟩ := mem_keys_iff.mp hkey
    exact List.mem_map.mpr ⟨_, hcell, rfl⟩
  have hfind : c.linked.nameToCanonicalName.find? a.2.1 = some key := OrdMap.find?_eq_some.mpr ⟨key, hsame, hbare⟩
  refine ⟨⟨hinv.validNames _ hmem, (hwords _ hmem).resolve_left hne, ?_⟩, ?_, ?_, ?_, ?_⟩
  · rw [← Bool.not_eq_true, isScreen, OrdMap.contains_iff]
    rintro ⟨e, he, hname⟩
    obtain ⟨d, hd, rfl⟩ := List.mem_map.mp he
    have hstored := hinv.stored d.1 (mem_keys_iff.mpr ⟨d.2, hd⟩)
    obtain ⟨hfirst, hsecond⟩ := Prod.mk.inj (OrdMap.entry_unique hstored hmem hname)
    exact hne (hfirst.symm.trans hsecond)
  · exact hchars
  · rw [isScreen, OrdMap.contains, hfind]
    rfl
  · rw [isCanonicalName, getCanonicalName, hfind]
    exact decide_eq_true ⟨hchars.1, hsame⟩
  · exact OrdMap.contains_mapValues.trans (hinv.known _ hmem)

lemma StoredInv.names_linked (hinv : c.StoredInv) (hwords : c.AliasWords) :
    c.linked.withNames (c.aliases.map fun a => (a.2.2, a.2.1)) = { c.linked with
      nameToCanonicalName := c.nameToCanonicalName } := by
  rw [withNames]
  congr 1
  apply OrdMap.ext_mem
  intro e
  have hnew : ∀ d ∈ c.aliases.map fun a => (a.2.2, a.2.1), c.linked.nameToCanonicalName.contains d.1 = false := by
    intro d hd
    obtain ⟨a, ha, rfl⟩ := List.mem_map.mp hd
    exact (hinv.writtenAlias hwords ha).fresh
  rw [OrdMap.mem_foldl_insert hnew (List.pairwise_map.mpr c.aliases_distinct)]
  constructor
  · rintro (he | he)
    · obtain ⟨a, ha, rfl⟩ := List.mem_map.mp he
      exact (mem_aliases ha).1
    · obtain ⟨d, hd, rfl⟩ := List.mem_map.mp he
      exact hinv.stored d.1 (mem_keys_iff.mpr ⟨d.2, hd⟩)
  · intro he
    by_cases hsame : e.1 = e.2
    · obtain ⟨name, canonical⟩ := e
      obtain rfl : name = canonical := hsame
      obtain ⟨cell, hcell⟩ := mem_keys_iff.mp (hinv.mem_keys he)
      exact .inr (List.mem_map.mpr ⟨_, hcell, rfl⟩)
    · refine .inl (List.mem_map.mpr ⟨(caseless e.2, e.2, e.1), c.aliases_perm.mem_iff.mpr ?_, rfl⟩)
      exact List.mem_map_of_mem (List.mem_filter.mpr ⟨he, decide_eq_true hsame⟩)

lemma StoredInv.aliases_eq_nil (hinv : c.StoredInv) (h : c.map.entries.length = c.nameToCanonicalName.entries.length) :
    c.aliases = [] := by
  have hnodup {m : OrdMap caseless Name} : m.entries.Nodup := m.sorted.imp fun hlt heq => (heq ▸ hlt).false
  have hsub : c.bare.nameToCanonicalName.entries ⊆ c.nameToCanonicalName.entries := by
    intro e he
    obtain ⟨d, hd, rfl⟩ := List.mem_map.mp he
    exact hinv.stored d.1 (mem_keys_iff.mpr ⟨d.2, hd⟩)
  have hlength : c.nameToCanonicalName.entries.length ≤ c.bare.nameToCanonicalName.entries.length := by
    rw [← h]
    exact (List.length_map _).ge
  have hperm := (List.Nodup.subperm hnodup hsub).perm_of_length_le hlength
  by_contra hne
  obtain ⟨a, ha⟩ := List.exists_mem_of_ne_nil _ hne
  obtain ⟨hmem, hother⟩ := mem_aliases ha
  obtain ⟨d, -, heq⟩ := List.mem_map.mp (hperm.mem_iff.mpr hmem)
  obtain ⟨hfirst, hsecond⟩ := Prod.mk.inj heq
  exact hother (hfirst.symm.trans hsecond)

def named (c : Config) : Config := { c.linked with nameToCanonicalName := c.nameToCanonicalName }

def aliasSection (c : Config) : List Name :=
  if c.map.entries.length ≠ c.nameToCanonicalName.entries.length then sectionLines .aliases (writeAliases [] c.aliases)
  else []

lemma StoredInv.runFrom_aliases (hinv : c.StoredInv) (hwords : c.AliasWords) (resolves : Name → Bool) (screen : Name) :
    ∃ screen', runFrom (Reading.next resolves) c.aliasSection ⟨⟨⟨c.linked, []⟩, none⟩, none, screen⟩ =
      some ⟨⟨⟨c.named, []⟩, none⟩, none, screen'⟩ := by
  have hnames := hinv.names_linked hwords
  rw [aliasSection]
  split_ifs with hlength
  · obtain ⟨screen', hrun⟩ := runFrom_writeAliases resolves (s := ⟨⟨⟨c.linked, []⟩, none⟩, some .aliases, []⟩) rfl
      (fun a ha => hinv.writtenAlias hwords ha) c.aliases_distinct
    rw [hnames] at hrun
    refine ⟨screen', ?_⟩
    rw [runFrom_section rfl, hrun]
    · rfl
    · intro t ht
      rw [hrun] at ht
      obtain rfl := Option.some.inj ht
      rfl
  · rw [hinv.aliases_eq_nil (not_not.mp hlength)] at hnames
    refine ⟨screen, ?_⟩
    rw [named, ← hnames]
    rfl

end Config

section Displays

variable {resolves : Name → Bool} {s : Reading}

variable (resolves) in
lemma runFrom_displayLines (hinside : s.inside = some .displays) {es : List (Name × List DisplayRect)}
    (hes : ∀ e ∈ es, (e.1 ≠ [] ∧ ∀ ch ∈ e.1, isWordChar ch = true) ∧ s.config.getCanonicalName e.1 ≠ [] ∧
      readableDisplays e.2 ∧ ∀ d ∈ e.2, d.InRange) :
    ∃ displays, runFrom (Reading.next resolves) (es.map fun e => displaysLine e.1 e.2) s =
      some (s.setConfig { s.config with displays := displays }) := by
  induction es generalizing s with
  | nil => exact ⟨s.config.displays, rfl⟩
  | cons e es ih =>
    obtain ⟨⟨hne, hchars⟩, hcanonical, hreadable, hrange⟩ := hes e List.mem_cons_self
    rw [List.map_cons, runFrom, next_displaysLine hinside hne hchars hrange hcanonical, if_pos hreadable,
      Option.bind_some]
    exact ih (s := s.setConfig { s.config with displays := _ }) hinside fun d hd => hes d (List.mem_cons_of_mem e hd)

def Config.displaySection (c : Config) : List Name :=
  if c.displays.entries = [] then [] else sectionLines .displays c.writeDisplays

lemma Config.StoredInv.runFrom_displays {c : Config} (hinv : c.StoredInv) (resolves : Name → Bool) (screen : Name) :
    ∃ displays screen', runFrom (Reading.next resolves) c.displaySection ⟨⟨⟨c.named, []⟩, none⟩, none, screen⟩ =
      some ⟨⟨⟨{ c.named with displays := displays }, []⟩, none⟩, none, screen'⟩ := by
  rw [displaySection]
  split_ifs
  · exact ⟨c.named.displays, screen, rfl⟩
  · have hes : ∀ e ∈ c.displays.entries, (e.1 ≠ [] ∧ ∀ ch ∈ e.1, isWordChar ch = true) ∧
        c.named.getCanonicalName e.1 ≠ [] ∧ readableDisplays e.2 ∧ ∀ d ∈ e.2, d.InRange := by
      intro e he
      obtain ⟨⟨hne, hchars⟩, -, hcanonical, -⟩ := hinv.canonical (hinv.displayNames e he)
      obtain ⟨hnil, hlength, hproper⟩ := hinv.displayRects e he
      exact ⟨⟨hne, fun ch hch => isWordChar_of_isNameChar (hchars ch hch)⟩, hcanonical,
        ⟨hnil, hlength, fun d hd => (hproper d hd).size⟩, fun d hd => (hproper d hd).range⟩
    obtain ⟨displays, hrun⟩ := runFrom_displayLines resolves
      (s := ⟨⟨⟨c.named, []⟩, none⟩, some .displays, []⟩) rfl hes
    refine ⟨displays, [], ?_⟩
    have hlines : c.writeDisplays = c.displays.entries.map fun e => displaysLine e.1 e.2 := rfl
    rw [hlines, runFrom_section rfl, hrun]
    · rfl
    · intro t ht
      rw [hrun] at ht
      obtain rfl := Option.some.inj ht
      rfl

end Displays

section Address

variable {resolves : Name → Bool} {s : Reading}

/-- What is read of the address. A host that is empty has no text. -/
def rereadAddress (resolves : Name → Bool) : Option Name → Option (Option Name)
  | none => some none
  | some host => if host = [] then none else (NetworkAddress.listenHost resolves host).map some

lemma isValueChar_iff {ch : Char} (h : isValueChar ch = true) :
    isGraph ch = true ∧ ch ≠ '(' ∧ ch ≠ ',' ∧ ch ≠ ';' ∧ ch ≠ '#' := by
  simp only [isValueChar, Bool.and_eq_true, bne_iff_ne] at h
  tauto

lemma address_clean {host : Name} (hhost : ∀ ch ∈ host, isValueChar ch = true) (hne : host ≠ []) :
    CleanLine ("address = ".toList ++ host) := by
  refine ⟨?_, ⟨'a', rfl, rfl⟩, host.getLast hne, ?_, ?_⟩
  · intro ch hch
    rcases List.mem_append.mp hch with hch | hch
    · exact (by decide : ∀ ch ∈ "address = ".toList, isLineChar ch = true) ch hch
    · obtain ⟨hgraph, -, -, -, hcomment⟩ := isValueChar_iff (hhost ch hch)
      exact isLineChar_of_isGraph hgraph hcomment
  · rw [List.getLast?_append, List.getLast?_eq_some_getLast hne]
    rfl
  · exact isLineEnd_of_isGraph (isValueChar_iff (hhost _ (List.getLast_mem hne))).1

lemma readOptionLine_address {host : Name} (hhost : ∀ ch ∈ host, isValueChar ch = true) (hne : host ≠ []) :
    (s.readOptionLine resolves ("address = ".toList ++ host)).toOption =
      (NetworkAddress.listenHost resolves host).map fun host => { s with listenAddress := some host } := by
  have hname : parseNameWithArgs "name" ['='] ("address".toList ++ " = ".toList ++ host) = _ :=
    parse_optionName (by decide) (by decide)
  have hin : ∀ ch ∈ host, inName [',', ';', '\n'] ch = true := by
    intro ch hch
    obtain ⟨hgraph, hbracket, hcomma, hsemicolon, -⟩ := isValueChar_iff (hhost ch hch)
    have hline : ch ≠ '\n' := by
      rintro rfl
      exact absurd hgraph (by decide)
    simp [inName, isBlank_of_isGraph hgraph, hbracket, hcomma, hsemicolon, hline]
  have hstart : ∃ ch ∈ (host ++ []).head?, isBlank ch = false := by
    obtain ⟨ch, rest, rfl⟩ := List.exists_cons_of_ne_nil hne
    exact ⟨ch, rfl, isBlank_of_isGraph (isValueChar_iff (hhost ch List.mem_cons_self)).1⟩
  have hvalue : parseNameWithArgs "value" [',', ';', '\n'] ([' '] ++ (host ++ [])) = _ :=
    parseNameWithArgs_eq (by decide) hin (by simp) hstart
  rw [List.append_nil] at hvalue
  have htext : "address = ".toList ++ host = "address".toList ++ " = ".toList ++ host := rfl
  rw [htext, Reading.readOptionLine, hname]
  change (parseNameWithArgs "value" _ ([' '] ++ host) >>= _).toOption = _
  rw [hvalue]
  change (s.handleOption resolves "address".toList host >>= _).toOption = _
  rw [Reading.handleOption, if_pos rfl]
  cases NetworkAddress.listenHost resolves host with
  | none => rfl
  | some host' => rfl

lemma runFrom_address (hinside : s.inside = some .options) (hnone : s.listenAddress = none) {address : Option Name}
    (haddress : ∀ host ∈ address, ∀ ch ∈ host, isValueChar ch = true) :
    runFrom (Reading.next resolves) (address.toList.map fun host => "\taddress = ".toList ++ host) s =
      (rereadAddress resolves address).map fun address => { s with listenAddress := address } := by
  cases address with
  | none =>
    have hsame : { s with listenAddress := none } = s := by rw [← hnone]
    exact congrArg some hsame.symm
  | some host =>
    have hhost := haddress host rfl
    rw [Option.toList_some, List.map_singleton, runFrom, rereadAddress]
    split_ifs with hnil
    · subst hnil
      have hclean : CleanLine "address =".toList := ⟨by decide, ⟨'a', rfl, rfl⟩, '=', rfl, rfl⟩
      have hnext : s.next resolves (['\t'] ++ "address =".toList ++ [' ']) = _ := next_trailing hinside hclean
      change (s.next resolves (['\t'] ++ "address =".toList ++ [' '])).bind _ = none
      rw [hnext]
      rfl
    · have hnot : "address = ".toList ++ host ≠ "end".toList := fun h => absurd (List.cons.inj h).1 (by decide)
      have hnext : s.next resolves (['\t'] ++ ("address = ".toList ++ host)) = _ :=
        next_content hinside (by decide) (address_clean hhost hnil) hnot
      change (s.next resolves (['\t'] ++ ("address = ".toList ++ host))).bind _ = _
      rw [hnext, Reading.readContent, readOptionLine_address hhost hnil]
      cases NetworkAddress.listenHost resolves host with
      | none => rfl
      | some host' => rfl

end Address

section Files

variable {resolves : Name → Bool} {s : Reading} {file : StoredConfig}

def Config.rereadOptions (c : Config) : ScreenOptions :=
  (c.globalOptions.entries.filterMap reread).foldl (fun m o => m.insert o.1 o.2) .empty

lemma addOptions_eq (s : Reading) (os : List (OptionID × OptionValue)) : addOptions s os = s.setConfig { s.config with
    globalOptions := os.foldl (fun m o => m.insert o.1 o.2) s.config.globalOptions } := by
  induction os generalizing s with
  | nil => rfl
  | cons o os ih => exact ih (s.addOption [] o.1 o.2)

def Config.withOptions (c : Config) (options : ScreenOptions) : Config := { c with globalOptions := options }

lemma runFrom_writeOptions (hinside : s.inside = some .options) (hnone : s.listenAddress = none) (hrules : s.rules = [])
    (hempty : s.config.globalOptions = .empty) (hinv : s.config.StoredInv) (hfile : file.ReadInv)
    (hnames : s.config.nameToCanonicalName = file.config.nameToCanonicalName) {lines : List Name}
    (hlines : formatRules file.rules = some lines) :
    runFrom (Reading.next resolves) (file.writeOptions lines) s =
      if ∀ option ∈ file.config.globalOptions.entries, option.1 ≠ kOptionClipboardSharingSize then
        (rereadAddress resolves file.listenAddress).bind fun address =>
          (file.rules.mapM (Rule.reread (s.config.withOptions file.config.rereadOptions))).map fun rules =>
            { s.setConfig (s.config.withOptions file.config.rereadOptions) with
              listenAddress := address, rules := rules }
      else none := by
  have hoptions : runFrom (Reading.next resolves) (file.config.globalOptions.entries.filterMap (writeOption ['\t'])) s =
      if ∀ option ∈ file.config.globalOptions.entries, option.1 ≠ kOptionClipboardSharingSize then
        some (s.setConfig (s.config.withOptions file.config.rereadOptions)) else none := by
    rw [runFrom_options hfile.config.options hinside, addOptions_eq, hempty]
    rfl
  rw [StoredConfig.writeOptions, runFrom_append, runFrom_append, hoptions]
  split_ifs with hsize
  · rw [if_pos hsize] at hoptions
    have hinv' : (s.config.withOptions file.config.rereadOptions).StoredInv :=
      runFrom_invariant (I := fun s => s.config.StoredInv)
        (fun s _ t hs hnext => (Reading.step_of_next hnext).storedInv hs) hinv hoptions
    have hstored : ∀ rule ∈ file.rules, rule.Stored (s.config.withOptions file.config.rereadOptions) := by
      intro rule hrule
      apply (hfile.rules rule hrule).mono
      intro e he
      change e ∈ s.config.nameToCanonicalName.entries
      rwa [hnames]
    have haddress : runFrom (Reading.next resolves)
        (file.listenAddress.toList.map fun host => "\taddress = ".toList ++ host)
        (s.setConfig (s.config.withOptions file.config.rereadOptions)) = _ :=
      runFrom_address (s := s.setConfig (s.config.withOptions file.config.rereadOptions)) hinside hnone hfile.address
    rw [Option.bind_some, haddress]
    cases rereadAddress resolves file.listenAddress with
    | none => rfl
    | some address =>
      have hread : runFrom (Reading.next resolves) lines
          { s.setConfig (s.config.withOptions file.config.rereadOptions) with listenAddress := address } = _ :=
        runFrom_rules
          (s := { s.setConfig (s.config.withOptions file.config.rereadOptions) with listenAddress := address })
          hinv' hstored hinside hlines
      rw [Option.map_some, Option.bind_some, Option.bind_some, hread]
      change Option.map (fun rules =>
        ({ s.setConfig _ with listenAddress := address, rules := s.rules ++ rules } : Reading)) _ = _
      rw [hrules]
      rfl
  · rfl

/-- A file is read again up to links, the size of the clipboard, the address and the rules that are refused. -/
theorem StoredConfig.ReadInv.runFrom_lines (hfile : file.ReadInv) (resolves : Name → Bool) :
    ∃ d : Config, d.map = file.config.map.mapValues Cell.rounded ∧ d.globalOptions = file.config.rereadOptions ∧
      ∀ rules, formatRules file.rules = some rules → runFrom (Reading.next resolves) (file.lines rules) .start =
        if file.config.ReadableLinks ∧
            ∀ option ∈ file.config.globalOptions.entries, option.1 ≠ kOptionClipboardSharingSize then
          (rereadAddress resolves file.listenAddress).bind fun address =>
            (file.rules.mapM (Rule.reread d)).map fun rules => ⟨⟨⟨d, rules⟩, address⟩, none, []⟩
        else none := by
  have hinv := hfile.config
  obtain ⟨screen₁, hscreens⟩ := hinv.runFrom_screens resolves
  obtain ⟨screen₂, hlinks⟩ := hinv.runFrom_links resolves screen₁
  obtain ⟨screen₃, haliases⟩ := hinv.runFrom_aliases hfile.words resolves screen₂
  obtain ⟨displays, screen₄, hdisplays⟩ := hinv.runFrom_displays resolves screen₃
  refine ⟨{ file.config.named with displays := displays, globalOptions := file.config.rereadOptions }, rfl, rfl, ?_⟩
  intro rules hrules
  have hlines : file.lines rules = sectionLines .screens file.config.writeScreens ++
      (sectionLines .links file.config.writeLinks ++ (file.config.aliasSection ++ (file.config.displaySection ++
        sectionLines .options (file.writeOptions rules)))) := by
    simp only [← List.append_assoc]
    rfl
  rw [hlines, runFrom_append, hscreens, Option.bind_some, runFrom_append, hlinks]
  by_cases hread : file.config.ReadableLinks
  · rw [if_pos hread] at hlinks ⊢
    have hbefore : runFrom (Reading.next resolves) (sectionLines .screens file.config.writeScreens ++
        (sectionLines .links file.config.writeLinks ++ (file.config.aliasSection ++ file.config.displaySection)))
        .start = some ⟨⟨⟨{ file.config.named with displays := displays }, []⟩, none⟩, none, screen₄⟩ := by
      rw [runFrom_append, hscreens, Option.bind_some, runFrom_append, hlinks, Option.bind_some, runFrom_append,
        haliases, Option.bind_some, hdisplays]
    have hinv' : ({ file.config.named with displays := displays } : Config).StoredInv :=
      runFrom_invariant (I := fun s => s.config.StoredInv)
        (fun s _ t hs hnext => (Reading.step_of_next hnext).storedInv hs) Reading.storedInv_start hbefore
    have hoptions : runFrom (Reading.next resolves) (file.writeOptions rules)
        ⟨⟨⟨{ file.config.named with displays := displays }, []⟩, none⟩, some .options, []⟩ = _ :=
      runFrom_writeOptions rfl rfl rfl rfl hinv' hfile rfl hrules
    rw [Option.bind_some, runFrom_append, haliases, Option.bind_some, runFrom_append, hdisplays, Option.bind_some,
      runFrom_section rfl, hoptions]
    · by_cases hsize : ∀ option ∈ file.config.globalOptions.entries, option.1 ≠ kOptionClipboardSharingSize
      · rw [if_pos hsize, if_pos ⟨hread, hsize⟩, Option.map_bind]
        congr 1
        funext address
        rw [Function.comp_apply, Option.map_map]
        rfl
      · rw [if_neg hsize, if_neg fun h => hsize h.2]
        rfl
    · intro t ht
      rw [hoptions] at ht
      split_ifs at ht
      obtain ⟨address, -, hmap⟩ := Option.bind_eq_some_iff.mp ht
      obtain ⟨rules', -, rfl⟩ := Option.map_eq_some_iff.mp hmap
      rfl
  · rw [if_neg hread, if_neg fun h => hread h.1]
    rfl

end Files

end InputLeap
