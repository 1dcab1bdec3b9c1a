import InputLeap.Gui.OptionsRead

/-! The options that the server runs with are those of the layout, but the corners of the whole desktop are lost, and
some settings make the server refuse the file. -/

namespace InputLeap.Gui

open InputLeap.Lib InputLeap.Lib.Text
open Reading (IsInt32)

namespace LayoutModel

variable (m : LayoutModel)

def cell (s : ScreenConfig) : Name × ScreenOptions := (s.name, optionMap s.optionList)

def aliasList : List (Name × List Name) := m.screens.map fun s => (s.name, s.aliases)

def names : List Name := m.screens.flatMap fun s => s.name :: s.aliases

/-- All names are valid and differ without case. -/
structure NamesFit : Prop where
  valid : ∀ name ∈ m.names, Reading.isValidScreenName name = true
  distinct : m.names.Pairwise fun a b => caseless a ≠ caseless b

def bareConfig : Config := (m.screens.map cell).foldl (fun c e => c.addCell e.1 e.2) .empty

def named : Config := m.bareConfig.withNames (aliasPairs m.aliasList)

variable {m} {resolves : Name → Bool}

section Names

lemma name_mem {s : ScreenConfig} (hs : s ∈ m.screens) : s.name ∈ m.names :=
  List.mem_flatMap.mpr ⟨s, hs, List.mem_cons_self⟩

lemma alias_mem {s : ScreenConfig} (hs : s ∈ m.screens) {name : Name} (hname : name ∈ s.aliases) : name ∈ m.names :=
  List.mem_flatMap.mpr ⟨s, hs, List.mem_cons_of_mem _ hname⟩

lemma NamesFit.screens_distinct (h : m.NamesFit) :
    m.screens.Pairwise fun s t => caseless s.name ≠ caseless t.name ∧
      ∀ a ∈ s.name :: s.aliases, ∀ b ∈ t.name :: t.aliases, caseless a ≠ caseless b := by
  have hdistinct := h.distinct
  rw [names, List.pairwise_flatMap] at hdistinct
  exact hdistinct.2.imp fun hst => ⟨hst _ List.mem_cons_self _ List.mem_cons_self, hst⟩

lemma bareConfig_eq (m : LayoutModel) : m.bareConfig =
    { Config.empty with
      map := (m.screens.map fun s => (s.name, (⟨.empty, optionMap s.optionList⟩ : Cell))).foldl
        (fun r e => r.insert e.1 e.2) .empty
      nameToCanonicalName := (m.screens.map fun s => (s.name, s.name)).foldl (fun r e => r.insert e.1 e.2) .empty } := by
  rw [bareConfig, Config.foldl_addCell, List.map_map, List.map_map]
  rfl

lemma named_globalOptions (m : LayoutModel) : m.named.globalOptions = .empty := by
  change m.bareConfig.globalOptions = _
  rw [bareConfig_eq]
  rfl

lemma NamesFit.mem_names (h : m.NamesFit) {e : Name × Name} :
    e ∈ m.bareConfig.nameToCanonicalName.entries ↔ ∃ s ∈ m.screens, e = (s.name, s.name) := by
  rw [bareConfig_eq]
  dsimp only
  rw [OrdMap.mem_foldl_insert (by simp [OrdMap.contains_eq_false, OrdMap.empty])]
  · simp [OrdMap.empty, eq_comm]
  · rw [List.pairwise_map]
    exact h.screens_distinct.imp fun hst => hst.1

lemma NamesFit.mem_map (h : m.NamesFit) {e : Name × Cell} :
    e ∈ m.bareConfig.map.entries ↔ ∃ s ∈ m.screens, e = (s.name, ⟨.empty, optionMap s.optionList⟩) := by
  rw [bareConfig_eq]
  dsimp only
  rw [OrdMap.mem_foldl_insert (by simp [OrdMap.contains_eq_false, OrdMap.empty])]
  · simp [OrdMap.empty, eq_comm]
  · rw [List.pairwise_map]
    exact h.screens_distinct.imp fun hst => hst.1

lemma NamesFit.screen (h : m.NamesFit) {s : ScreenConfig} (hs : s ∈ m.screens) :
    m.bareConfig.isScreen s.name = true ∧ m.bareConfig.getCanonicalName s.name = s.name ∧
      m.bareConfig.map.find? s.name = some ⟨.empty, optionMap s.optionList⟩ := by
  obtain ⟨hscreen, hcanonical⟩ := Config.getCanonicalName_of_mem (h.mem_names.mpr ⟨s, hs, rfl⟩)
  exact ⟨hscreen, hcanonical, OrdMap.find?_eq_some.mpr ⟨s.name, rfl, h.mem_map.mpr ⟨s, hs, rfl⟩⟩⟩

lemma NamesFit.alias_ne (h : m.NamesFit) {s t : ScreenConfig} (hs : s ∈ m.screens) (ht : t ∈ m.screens) {name : Name}
    (hname : name ∈ s.aliases) : caseless name ≠ caseless t.name := by
  have hdistinct := h.distinct
  rw [names, List.pairwise_flatMap] at hdistinct
  obtain ⟨i, hi⟩ := List.mem_iff_getElem?.mp hs
  obtain ⟨j, hj⟩ := List.mem_iff_getElem?.mp ht
  obtain ⟨hi', rfl⟩ := List.getElem?_eq_some_iff.mp hi
  obtain ⟨hj', rfl⟩ := List.getElem?_eq_some_iff.mp hj
  rcases lt_trichotomy i j with hlt | rfl | hgt
  · exact List.pairwise_iff_getElem.mp hdistinct.2 i j hi' hj' hlt name (List.mem_cons_of_mem _ hname) _ List.mem_cons_self
  · exact ((List.pairwise_cons.mp (hdistinct.1 _ hs)).1 name hname).symm
  · exact (List.pairwise_iff_getElem.mp hdistinct.2 j i hj' hi' hgt _ List.mem_cons_self name
      (List.mem_cons_of_mem _ hname)).symm

lemma NamesFit.aliased (h : m.NamesFit) (hend : ∀ s ∈ m.screens, "end".toList ∉ s.aliases) :
    Aliased m.bareConfig m.aliasList := by
  refine ⟨fun e he => ?_, fun e he name hname => ?_, ?_⟩
  · obtain ⟨s, hs, rfl⟩ := List.mem_map.mp he
    obtain ⟨hscreen, hcanonical, hfind⟩ := h.screen hs
    have hvalid := h.valid _ (name_mem hs)
    refine ⟨hvalid, hscreen, ?_, ?_⟩
    · rw [Config.isCanonicalName, hcanonical]
      exact decide_eq_true ⟨(isNameChar_of_valid hvalid).1, rfl⟩
    · rw [OrdMap.contains, hfind]
      rfl
  · obtain ⟨s, hs, rfl⟩ := List.mem_map.mp he
    refine ⟨h.valid _ (alias_mem hs hname), fun heq => hend s hs (heq ▸ hname), ?_⟩
    refine OrdMap.contains_eq_false.mpr fun n w hmem => ?_
    obtain ⟨t, ht, heq⟩ := h.mem_names.mp hmem
    obtain ⟨rfl, -⟩ := Prod.mk.inj heq
    exact (h.alias_ne hs ht hname).symm
  · have hdistinct := h.distinct
    rw [names, List.pairwise_flatMap] at hdistinct
    rw [aliasPairs, aliasList, List.flatMap_map, List.pairwise_flatMap]
    refine ⟨fun s hs => ?_, hdistinct.2.imp fun {s t} hst a ha b hb => ?_⟩
    · rw [List.pairwise_map]
      exact (List.pairwise_cons.mp (hdistinct.1 s hs)).2
    · obtain ⟨a, hmem, rfl⟩ := List.mem_map.mp ha
      obtain ⟨b, hmem', rfl⟩ := List.mem_map.mp hb
      exact hst a (List.mem_cons_of_mem _ hmem) b (List.mem_cons_of_mem _ hmem')

lemma NamesFit.getCanonicalName_named (h : m.NamesFit) {s : ScreenConfig} (hs : s ∈ m.screens) :
    m.named.getCanonicalName s.name = s.name := by
  rw [named, Config.getCanonicalName_withNames]
  · exact (h.screen hs).2.1
  · intro e he
    obtain ⟨d, hd, hpair⟩ := List.mem_flatMap.mp he
    obtain ⟨t, ht, rfl⟩ := List.mem_map.mp hd
    obtain ⟨name, hname, rfl⟩ := List.mem_map.mp hpair
    exact h.alias_ne ht hs hname

end Names

section Sections

variable {s : Reading}

lemma addCells_eq (es : List (Name × ScreenOptions)) (s : Reading) :
    ∃ screen, addCells s es = { s.setConfig (es.foldl (fun c e => c.addCell e.1 e.2) s.config) with screen := screen } := by
  induction es generalizing s with
  | nil => exact ⟨s.screen, rfl⟩
  | cons e es ih => exact ih (s.withCell e.1 e.2)

lemma runFrom_sectionText (sect : SectionName) (lines : List Name) (s : Reading) :
    runFrom (Reading.next resolves) (sectionText sect lines) s = runFrom (Reading.next resolves) (sectionLines sect lines) s := by
  rw [sectionText, runFrom_append]
  have hblank (t : Reading) : runFrom (Reading.next resolves) [[]] t = some t := rfl
  rw [funext hblank]
  cases runFrom (Reading.next resolves) (sectionLines sect lines) s <;> rfl

lemma runFrom_screenSection (h : m.NamesFit) (hsizes : ∀ s ∈ m.screens, IsInt32 s.cornerSize) :
    ∃ screen, runFrom (Reading.next resolves) (sectionText .screens (m.screens.flatMap ScreenConfig.screenLines)) .start =
      some ⟨⟨⟨m.bareConfig, []⟩, none⟩, none, screen⟩ := by
  have hrun : runFrom (Reading.next resolves) (m.screens.flatMap ScreenConfig.screenLines)
      { Reading.start with inside := some .screens, screen := [] } =
      some (addCells { Reading.start with inside := some .screens, screen := [] } (m.screens.map cell)) := by
    apply runFrom_cells cell
    · intro s hs t hinside hscreen hmap
      exact runFrom_screenLines hinside (h.valid _ (name_mem hs)) hscreen hmap (hsizes s hs)
    · rfl
    · exact fun _ _ => ⟨rfl, rfl⟩
    · exact h.screens_distinct.imp fun hst => hst.1
  obtain ⟨screen, hscreen⟩ := addCells_eq (m.screens.map cell) { Reading.start with inside := some .screens, screen := [] }
  rw [runFrom_sectionText, runFrom_section rfl, hrun]
  · exact ⟨screen, by rw [hscreen]; rfl⟩
  · intro t ht
    rw [hrun] at ht
    rw [← Option.some.inj ht, hscreen]
    rfl

lemma aliasLines_eq (m : LayoutModel) :
    m.screens.flatMap ScreenConfig.aliasLines = m.aliasList.flatMap fun e => aliasLines e.1 e.2 := by
  rw [aliasList, List.flatMap_map]
  rfl

lemma runFrom_aliasSection (h : m.NamesFit) (screen : Name) :
    ((∀ s ∈ m.screens, "end".toList ∉ s.aliases) ∧
      ∃ screen', runFrom (Reading.next resolves) (sectionText .aliases (m.screens.flatMap ScreenConfig.aliasLines))
        ⟨⟨⟨m.bareConfig, []⟩, none⟩, none, screen⟩ = some ⟨⟨⟨m.named, []⟩, none⟩, none, screen'⟩) ∨
    (¬∀ s ∈ m.screens, "end".toList ∉ s.aliases) ∧
      runFrom (Reading.next resolves) (sectionText .aliases (m.screens.flatMap ScreenConfig.aliasLines))
        ⟨⟨⟨m.bareConfig, []⟩, none⟩, none, screen⟩ = none := by
  rw [runFrom_sectionText]
  by_cases hend : ∀ s ∈ m.screens, "end".toList ∉ s.aliases
  · refine .inl ⟨hend, ?_⟩
    have hinside : ({ (⟨⟨⟨m.bareConfig, []⟩, none⟩, none, screen⟩ : Reading) with inside := some .aliases, screen := [] } :
        Reading).inside = some .aliases := rfl
    obtain ⟨screen', hrun⟩ := @runFrom_aliasLines resolves _ hinside _ (h.aliased hend)
    rw [aliasLines_eq, runFrom_section rfl, hrun]
    · exact ⟨screen', rfl⟩
    · intro t ht
      rw [hrun] at ht
      rw [← Option.some.inj ht]
      rfl
  · refine .inr ⟨hend, ?_⟩
    push Not at hend
    obtain ⟨s, hs, hword⟩ := hend
    rw [sectionLines, List.cons_append, runFrom, next_section .aliases rfl, Option.bind_some]
    refine @runFrom_ended resolves _ (m.screens.flatMap ScreenConfig.aliasLines) ("\t\t".toList ++ "end".toList) ?_ ?_ ?_
    · intro raw hraw t ht
      obtain ⟨u, hu, hraw⟩ := List.mem_flatMap.mp hraw
      rw [ScreenConfig.aliasLines] at hraw
      split_ifs at hraw
      · simp at hraw
      · rcases List.mem_cons.mp hraw with rfl | hraw
        · obtain ⟨hne, hchars⟩ := isNameChar_of_valid (h.valid _ (name_mem hu))
          exact next_outside_header ht hne hchars
        · obtain ⟨name, hname, rfl⟩ := List.mem_map.mp hraw
          obtain ⟨hne, hchars⟩ := isNameChar_of_valid (h.valid _ (alias_mem hu hname))
          exact next_outside_name ht hne hchars
    · refine List.mem_flatMap.mpr ⟨s, hs, ?_⟩
      rw [ScreenConfig.aliasLines, if_neg (List.ne_nil_of_mem hword)]
      exact List.mem_cons_of_mem _ (List.mem_map_of_mem hword)
    · intro t sect ht
      rw [next_line ht (by decide) (isNameChar_clean (by decide) (by decide)), Reading.readSectionLine, if_pos rfl]
      rfl

structure SameOptions (s t : Reading) : Prop where
  inside : t.inside = s.inside
  names : t.config.nameToCanonicalName = s.config.nameToCanonicalName
  globalOptions : t.config.globalOptions = s.config.globalOptions
  options : ∀ name, (t.config.map.find? name).map Cell.options = (s.config.map.find? name).map Cell.options

lemma SameOptions.refl (s : Reading) : SameOptions s s := ⟨rfl, rfl, rfl, fun _ => rfl⟩

lemma SameOptions.trans {s t u : Reading} (h : SameOptions s t) (h' : SameOptions t u) : SameOptions s u :=
  ⟨h'.inside.trans h.inside, h'.names.trans h.names, h'.globalOptions.trans h.globalOptions,
    fun name => (h'.options name).trans (h.options name)⟩

lemma sameOptions_connect {t : Config} {srcName dstName : Name} {side : Direction} {a b a' b' : ℚ}
    (h : s.config.connect srcName side a b dstName a' b' = some t) : SameOptions s (s.setConfig t) := by
  rw [Config.connect] at h
  split_ifs at h
  split at h
  · simp at h
  · rename_i cell hcell
    obtain ⟨cell', hadd, rfl⟩ := Option.map_eq_some_iff.mp h
    refine ⟨rfl, rfl, rfl, fun name => ?_⟩
    have hoptions : cell'.options = cell.options := by
      rw [Cell.add] at hadd
      split_ifs at hadd
      rw [← Option.some.inj hadd]
    change ((s.config.map.modify _ fun _ => cell').find? name).map Cell.options = _
    by_cases hname : caseless name = caseless (s.config.getCanonicalName srcName)
    · have hsame (r : OrdMap caseless Cell) : r.find? name = r.find? (s.config.getCanonicalName srcName) := by
        rw [OrdMap.find?, OrdMap.find?, hname]
      rw [hsame, hsame, hcell, OrdMap.find?_modify (by rw [OrdMap.contains, hcell]; rfl)]
      exact congrArg some hoptions
    · rw [OrdMap.find?_modify_of_ne hname]

lemma sameOptions_readLinkLine {line : Name} {t : Reading} (h : s.readLinkLine line = .ok t) : SameOptions s t := by
  rw [Reading.readLinkLine] at h
  split_ifs at h
  · rw [Reading.readHeader] at h
    split_ifs at h
    cases h
    exact ⟨rfl, rfl, rfl, fun _ => rfl⟩
  · obtain ⟨⟨side, srcArgs, rest⟩, -, h⟩ := bind_eq_ok.mp h
    obtain ⟨⟨dstScreen, dstArgs, rest'⟩, -, h⟩ := bind_eq_ok.mp h
    obtain ⟨⟨srcStart, srcEnd⟩, -, h⟩ := bind_eq_ok.mp h
    obtain ⟨⟨dstStart, dstEnd⟩, -, h⟩ := bind_eq_ok.mp h
    dsimp only at h
    split at h
    · simp at h
    · split_ifs at h
      split at h
      · simp at h
      · rename_i hconnect
        cases h
        exact sameOptions_connect hconnect

lemma percentText_chars (n : ℤ) : ∀ c ∈ percentText n, isWordChar c = true := by
  have hdigit (n : ℤ) : isWordChar (digit n) = true := by
    have hall : ∀ k < 10, isWordChar (Char.ofNat (48 + k)) = true := by decide
    exact hall _ (Nat.mod_lt _ (by decide))
  have hall : ∀ c ∈ formatInt (n / 100) ++ ['.', digit (n / 10 % 10), digit (n % 10)], isWordChar c = true := by
    intro c hc
    simp only [List.mem_append, List.mem_cons, List.not_mem_nil, or_false] at hc
    rcases hc with hc | rfl | rfl | rfl
    · exact (formatInt_chars _).2 c hc
    · rfl
    · exact hdigit _
    · exact hdigit _
  intro c hc
  rw [percentText] at hc
  split_ifs at hc
  · exact hall c ((List.rdropWhile_prefix _ _).subset (List.dropLast_subset _ hc))
  · exact hall c ((List.rdropWhile_prefix _ _).subset hc)

lemma lineText_range {word : Name} (hne : word ≠ []) (hword : ∀ c ∈ word, isWordChar c = true) (start stop : ℤ) :
    LineText (word ++ rangeText start stop) := by
  have hgraph {c : Char} (h : isWordChar c = true) : isGraph c = true ∧ c ≠ ':' ∧ c ≠ '#' :=
    ⟨(isWordChar_iff h).1, (isWordChar_iff h).2.1, (isWordChar_iff h).2.2.1⟩
  apply lineText_of_word (by simp [hne])
  intro c hc
  rcases List.mem_append.mp hc with hc | hc
  · exact hgraph (hword c hc)
  · rw [rangeText] at hc
    split_ifs at hc
    · simp only [List.cons_append, List.mem_cons, List.mem_append, List.not_mem_nil, or_false] at hc
      rcases hc with rfl | (hc | rfl | hc) | rfl
      · decide
      · exact hgraph (percentText_chars _ c hc)
      · decide
      · exact hgraph (percentText_chars _ c hc)
      · decide
    · simp at hc

lemma lineText_link (h : m.NamesFit) {link : ScreenLink} (hlink : link ∈ m.links) : ∃ text, LineText text ∧
    '=' ∈ text ∧ m.linkText link = "\t\t".toList ++ text := by
  have htarget : ∃ t, m.screens[link.target]? = some t := by
    simp only [links, List.mem_flatMap, List.mem_filterMap] at hlink
    obtain ⟨side, -, s, -, f, -, piece, -, hlink⟩ := hlink
    rw [LayoutModel.link] at hlink
    obtain ⟨t, ht, hlink⟩ := Option.bind_eq_some_iff.mp hlink
    dsimp only at hlink
    split at hlink
    · simp at hlink
    · rw [← Option.some.inj hlink]
      exact ⟨t, ht⟩
  obtain ⟨t, ht⟩ := htarget
  obtain ⟨hne, hchars⟩ := isNameChar_of_valid (h.valid _ (name_mem (List.mem_of_getElem? ht)))
  have hside : sideName link.side ≠ [] ∧ ∀ c ∈ sideName link.side, isWordChar c = true := by
    cases link.side <;> decide
  refine ⟨_, (lineText_range hside.1 hside.2 link.fromStart link.fromEnd).append
    (lineText_range hne (fun c hc => isWordChar_of_isNameChar (hchars c hc)) link.toStart link.toEnd)
    (by decide : ∀ c ∈ " = ".toList, isLineChar c = true),
    List.mem_append_left _ (List.mem_append_right _ (by decide)), ?_⟩
  delta linkText
  simp only [ht, Option.elim_some, List.append_assoc]

lemma sameOptions_linkLines (h : m.NamesFit) {t : Reading} (hinside : s.inside = some .links)
    (hrun : runFrom (Reading.next resolves) m.linkLines s = some t) : SameOptions s t := by
  have hline : ∀ raw ∈ m.linkLines, ∃ indent line, raw = indent ++ line ∧ (∀ c ∈ indent, isBlank c = true) ∧
      CleanLine line ∧ line ≠ "end".toList := by
    intro raw hraw
    obtain ⟨⟨u, i⟩, hu, hraw⟩ := List.mem_flatMap.mp hraw
    rcases List.mem_cons.mp hraw with rfl | hraw
    · obtain ⟨hne, hchars⟩ := isNameChar_of_valid (h.valid _ (name_mem (List.fst_mem_of_mem_zipIdx hu)))
      obtain ⟨hclean, hend⟩ := header_clean hne hchars
      exact ⟨['\t'], u.name ++ [':'], rfl, by decide, hclean, hend⟩
    · obtain ⟨link, hlink, rfl⟩ := List.mem_map.mp hraw
      obtain ⟨text, htext, hequal, hraw⟩ := lineText_link h (List.mem_of_mem_filter hlink)
      refine ⟨"\t\t".toList, text, hraw, by decide, htext.clean, ?_⟩
      rintro rfl
      exact absurd hequal (by decide)
  generalize m.linkLines = lines at hline hrun
  induction lines generalizing s with
  | nil =>
    cases hrun
    exact .refl _
  | cons raw lines ih =>
    obtain ⟨u, hnext, hrest⟩ := Option.bind_eq_some_iff.mp hrun
    obtain ⟨indent, line, rfl, hindent, hclean, hend⟩ := hline raw List.mem_cons_self
    rw [next_content hinside hindent hclean hend, toOption_eq_some] at hnext
    have hsame : SameOptions s u := sameOptions_readLinkLine hnext
    exact hsame.trans (ih (hsame.inside.trans hinside) (fun raw hraw => hline raw (List.mem_cons_of_mem _ hraw)) hrest)

def displayRectsOf (s : ScreenConfig) : List DisplayRect := s.displays.map fun d => ⟨d.x, d.y, d.width, d.height⟩

lemma displaysLine_eq (s : ScreenConfig) : s.displaysLine = displaysLine s.name (displayRectsOf s) := by
  rw [ScreenConfig.displaysLine, displaysLine, displayRectsOf, List.flatMap_map]
  rfl

def DisplayInRange (d : DisplayConfig) : Prop := IsInt32 d.x ∧ IsInt32 d.y ∧ IsInt32 d.width ∧ IsInt32 d.height

def DisplaysRead (s : ScreenConfig) : Prop :=
  2 ≤ s.displays.length → s.displays.length ≤ 32 ∧ ∀ d ∈ s.displays, 0 < d.width ∧ 0 < d.height

instance (s : ScreenConfig) : Decidable (DisplaysRead s) := inferInstanceAs (Decidable (_ → _))

lemma displaysRead_iff {s : ScreenConfig} (hs : 2 ≤ s.displays.length) :
    readableDisplays (displayRectsOf s) ↔ DisplaysRead s := by
  have hne : s.displays ≠ [] := by
    rintro heq
    simp [heq] at hs
  simp only [readableDisplays, displayRectsOf, DisplaysRead, List.length_map, List.forall_mem_map, ne_eq,
    List.map_eq_nil_iff, hne, not_false_eq_true, true_and, hs, forall_const]

lemma runFrom_displaysLines (hinside : s.inside = some .displays) {screens : List ScreenConfig}
    (hnames : ∀ u ∈ screens, Reading.isValidScreenName u.name = true ∧ s.config.getCanonicalName u.name = u.name)
    (hlong : ∀ u ∈ screens, 2 ≤ u.displays.length) (hrange : ∀ u ∈ screens, ∀ d ∈ u.displays, DisplayInRange d) :
    ((∀ u ∈ screens, DisplaysRead u) ∧
      ∃ t, runFrom (Reading.next resolves) (screens.map ScreenConfig.displaysLine) s = some t ∧ SameOptions s t) ∨
    (¬∀ u ∈ screens, DisplaysRead u) ∧ runFrom (Reading.next resolves) (screens.map ScreenConfig.displaysLine) s = none := by
  induction screens generalizing s with
  | nil => exact .inl ⟨by simp, s, rfl, SameOptions.refl s⟩
  | cons u screens ih =>
    obtain ⟨hvalid, hcanonical⟩ := hnames u List.mem_cons_self
    obtain ⟨hne, hchars⟩ := isNameChar_of_valid hvalid
    have hnext := @next_displaysLine resolves s u.name (displayRectsOf u) hinside hne
      (fun c hc => isWordChar_of_isNameChar (hchars c hc)) (List.forall_mem_map.mpr (hrange u List.mem_cons_self))
      (by rw [hcanonical]; exact hne)
    rw [List.map_cons, runFrom, displaysLine_eq, hnext, List.forall_mem_cons]
    have hset (displays : OrdMap (id : Name → Name) (List DisplayRect)) :
        SameOptions s (s.setConfig { s.config with displays := displays }) := ⟨rfl, rfl, rfl, fun _ => rfl⟩
    by_cases hread : DisplaysRead u
    · rw [if_pos ((displaysRead_iff (hlong u List.mem_cons_self)).mpr hread), Option.bind_some]
      have hrest := ih (s := s.setConfig { s.config with
        displays := (s.config.displays.erase (s.config.getCanonicalName u.name)).insert
          (s.config.getCanonicalName u.name) (displayRectsOf u) }) hinside
        (fun v hv => hnames v (List.mem_cons_of_mem u hv)) (fun v hv => hlong v (List.mem_cons_of_mem u hv))
        (fun v hv => hrange v (List.mem_cons_of_mem u hv))
      rcases hrest with ⟨hall, t, ht, hsame⟩ | ⟨hnot, hnone⟩
      · exact .inl ⟨⟨hread, hall⟩, t, ht, (hset _).trans hsame⟩
      · exact .inr ⟨fun h => hnot h.2, hnone⟩
    · rw [if_neg fun h => hread ((displaysRead_iff (hlong u List.mem_cons_self)).mp h)]
      exact .inr ⟨fun h => hread h.1, rfl⟩

end Sections

section Options

variable {s : Reading}

def readOptions (o : LayoutOptions) : List (OptionID × OptionValue) :=
  ({ o with switchCorners := fun _ => false } : LayoutOptions).optionList

structure OptionsInRange (o : LayoutOptions) : Prop where
  heartbeat : IsInt32 o.heartbeat
  switchDelay : IsInt32 o.switchDelay
  switchDoubleTap : IsInt32 o.switchDoubleTap
  switchCornerSize : IsInt32 o.switchCornerSize
  dimmingPercentage : IsInt32 o.dimmingPercentage

lemma next_wordOption {row : String × OptionID × OptionKind} (hrow : row ∈ globalOptions) (hkind : row.2.2 ≠ .corners)
    {v : OptionValue} (hv : row.2.2.Valid v) (hinside : s.inside = some .options) :
    s.next resolves (optionText ['\t'] row.1 (row.2.2.format v)) = some (s.addOption [] row.2.1 v) := by
  have hword := format_word row.2.2 hkind v
  have hline : optionText ['\t'] row.1 (row.2.2.format v) = ['\t'] ++ (row.1.toList ++ " = ".toList ++ row.2.2.format v) := by
    simp only [optionText, List.append_assoc]
  rw [hline, next_globalOption hrow (format_lineText row.2.2 v) (parse_wordValue hword.1 hword.2 [' '] (by decide)) (by simp)
    hinside, parse_format hv]
  rfl

def ReadAs (resolves : Name → Bool) (line : Name) (o : OptionID × OptionValue) : Prop :=
  ∀ s : Reading, s.inside = some .options → s.next resolves line = some (s.addOption [] o.1 o.2)

lemma readAs_bool {name : String} {id : OptionID} (hrow : (name, id, .boolean) ∈ globalOptions) (on : Bool) :
    ReadAs resolves (optionText ['\t'] name (boolText on)) (id, boolValue on) := by
  intro s hinside
  have htext : boolText on = OptionKind.boolean.format (boolValue on) := by
    cases on <;> rfl
  rw [htext]
  exact next_wordOption hrow (by simp) (boolean_valid on) hinside

lemma readAs_int {name : String} {id : OptionID} (hrow : (name, id, .int) ∈ globalOptions) {n : ℤ} (hn : IsInt32 n) :
    ReadAs resolves (optionText ['\t'] name (formatInt n)) (id, intValue n) := by
  intro s hinside
  rw [← format_intValue hn]
  exact next_wordOption hrow (by simp) trivial hinside

lemma readAs_corners (corners : Fin 4 → Bool) :
    ReadAs resolves (optionText ['\t'] "switchCorners" (cornersText corners))
      (kOptionScreenSwitchCorners, kNoCornerMask) := by
  intro s hinside
  obtain ⟨rest, hplus, hparse⟩ := parse_cornersValue (cornersMask corners)
  have hrest : rest.head? ≠ some ',' ∧ rest.head? ≠ some ';' :=
    ⟨fun h => absurd (hplus _ h) (by decide), fun h => absurd (hplus _ h) (by decide)⟩
  have hline : optionText ['\t'] "switchCorners" (formatCorners (cornersMask corners)) =
      ['\t'] ++ ("switchCorners".toList ++ " = ".toList ++ formatCorners (cornersMask corners)) := by
    simp only [optionText, List.append_assoc]
  have hrow : ("switchCorners", kOptionScreenSwitchCorners, OptionKind.corners) ∈ globalOptions := by decide
  rw [next_cornersText (by decide), hline]
  exact next_globalOption hrow (format_lineText .corners _) hparse hrest hinside

lemma runFrom_optionLines {lines : List Name} {os : List (OptionID × OptionValue)}
    (h : List.Forall₂ (ReadAs resolves) lines os) (hinside : s.inside = some .options) :
    runFrom (Reading.next resolves) lines s = some (addOptions s os) := by
  induction h generalizing s with
  | nil => rfl
  | cons hline _ ih =>
    rw [runFrom, hline s hinside, Option.bind_some]
    exact ih hinside

lemma isInt32_iff {n : ℤ} : IsInt32 n ↔ -2 ^ 31 ≤ n ∧ n < 2 ^ 31 := by
  rw [IsInt32, BitVec.toInt_ofInt, Int.bmod]
  omega

lemma parseInt_nat (n : ℕ) : (parseInt (formatInt n)).toOption = if n < 2 ^ 31 then some (intValue n) else none := by
  have htext : formatInt (n : ℤ) = Nat.toDigits 10 n ++ [] := by
    rw [formatInt, if_neg (by omega), List.append_nil]
    rfl
  rw [parseInt, htext, strtol_toDigits_min n (by simp)]
  dsimp only
  rw [if_neg (by simp)]
  by_cases hn : n < 2 ^ 31
  · have hrange : (BitVec.ofInt 32 (n : ℤ)).toInt = n := isInt32_iff.mpr (by omega)
    rw [min_eq_left (by omega), if_neg (not_not.mpr hrange), if_pos hn]
    rfl
  · have hrange : (BitVec.ofInt 32 (min (n : ℤ) (2 ^ 63 - 1))).toInt ≠ min (n : ℤ) (2 ^ 63 - 1) := by
      rw [Ne, ← IsInt32, isInt32_iff]
      omega
    rw [if_pos hrange, if_neg hn]
    rfl

lemma addOptions_config (os : List (OptionID × OptionValue)) (s : Reading) :
    (addOptions s os).config = { s.config with globalOptions := os.foldl (fun r o => r.insert o.1 o.2) s.config.globalOptions } ∧
      (addOptions s os).inside = s.inside := by
  induction os generalizing s with
  | nil => exact ⟨rfl, rfl⟩
  | cons o os ih => exact ih (s.addOption [] o.1 o.2)

lemma runFrom_around {before behind : List Name} {line : Name} {osBefore osBehind : List (OptionID × OptionValue)}
    {o : OptionID × OptionValue} {P : Prop} [Decidable P] (hbefore : List.Forall₂ (ReadAs resolves) before osBefore)
    (hbehind : List.Forall₂ (ReadAs resolves) behind osBehind)
    (hline : ∀ s : Reading, s.inside = some .options →
      s.next resolves line = if P then some (s.addOption [] o.1 o.2) else none) (hinside : s.inside = some .options) :
    runFrom (Reading.next resolves) (before ++ line :: behind) s =
      if P then some (addOptions s (osBefore ++ o :: osBehind)) else none := by
  have hinside' : (addOptions s osBefore).inside = some .options := (addOptions_config osBefore s).2.trans hinside
  rw [runFrom_append, runFrom_optionLines hbefore hinside, Option.bind_some, runFrom, hline _ hinside']
  split_ifs
  · have hrest := @runFrom_optionLines resolves ((addOptions s osBefore).addOption [] o.1 o.2) _ _ hbehind hinside'
    rw [Option.bind_some, hrest, addOptions, addOptions, addOptions, List.foldl_append]
    rfl
  · rfl

lemma runFrom_options (o : LayoutOptions) (ho : OptionsInRange o) (hinside : s.inside = some .options) :
    runFrom (Reading.next resolves) o.lines s =
      if o.clipboardSharingSize < 2 ^ 31 then some (addOptions s (readOptions o)) else none := by
  have hflag {on : Bool} {line : Name} {option : OptionID × OptionValue} (h : ReadAs resolves line option) :
      List.Forall₂ (ReadAs resolves) (if on then [line] else []) (if on then [option] else []) := by
    cases on
    · exact .nil
    · exact .cons h .nil
  -- up to the size of the clipboard, and behind it
  have hbefore : List.Forall₂ (ReadAs resolves)
      ((if o.hasHeartbeat then [optionText ['\t'] "heartbeat" (formatInt o.heartbeat)] else []) ++
        [optionText ['\t'] "relativeMouseMoves" (boolText o.relativeMouseMoves),
          optionText ['\t'] "screenSaverSync" (boolText o.screenSaverSync),
          optionText ['\t'] "win32KeepForeground" (boolText o.win32KeepForeground),
          optionText ['\t'] "clipboardSharing" (boolText o.clipboardSharing)])
      ((if o.hasHeartbeat then [(kOptionHeartbeat, intValue o.heartbeat)] else []) ++
        [(kOptionRelativeMouseMoves, boolValue o.relativeMouseMoves),
          (kOptionScreenSaverSync, boolValue o.screenSaverSync),
          (kOptionWin32KeepForeground, boolValue o.win32KeepForeground),
          (kOptionClipboardSharing, boolValue o.clipboardSharing)]) := by
    refine List.rel_append (hflag (readAs_int (by decide) ho.heartbeat)) ?_
    refine .cons ?_ (.cons ?_ (.cons ?_ (.cons ?_ .nil)))
    all_goals exact readAs_bool (by decide) _
  have hbehind : List.Forall₂ (ReadAs resolves)
      ((if o.hasSwitchDelay then [optionText ['\t'] "switchDelay" (formatInt o.switchDelay)] else []) ++
        (if o.hasSwitchDoubleTap then [optionText ['\t'] "switchDoubleTap" (formatInt o.switchDoubleTap)] else []) ++
        [optionText ['\t'] "switchCorners" (cornersText o.switchCorners),
          optionText ['\t'] "switchCornerSize" (formatInt o.switchCornerSize),
          optionText ['\t'] "screenDimmingEnabled" (boolText o.dimmingEnabled),
          optionText ['\t'] "screenDimmingPercentage" (formatInt o.dimmingPercentage)])
      ((if o.hasSwitchDelay then [(kOptionScreenSwitchDelay, intValue o.switchDelay)] else []) ++
        (if o.hasSwitchDoubleTap then [(kOptionScreenSwitchTwoTap, intValue o.switchDoubleTap)] else []) ++
        [(kOptionScreenSwitchCorners, kNoCornerMask), (kOptionScreenSwitchCornerSize, intValue o.switchCornerSize),
          (kOptionScreenDimmingEnabled, boolValue o.dimmingEnabled),
          (kOptionScreenDimmingPercentage, intValue o.dimmingPercentage)]) := by
    refine List.rel_append (List.rel_append (hflag (readAs_int (by decide) ho.switchDelay))
      (hflag (readAs_int (by decide) ho.switchDoubleTap))) ?_
    refine .cons ?_ (.cons ?_ (.cons ?_ (.cons ?_ .nil)))
    · exact readAs_corners _
    · exact readAs_int (by decide) ho.switchCornerSize
    · exact readAs_bool (by decide) _
    · exact readAs_int (by decide) ho.dimmingPercentage
  have hsize (s : Reading) (hs : s.inside = some .options) :
      s.next resolves (optionText ['\t'] "clipboardSharingSize" (formatInt o.clipboardSharingSize)) =
        if o.clipboardSharingSize < 2 ^ 31
        then some (s.addOption [] kOptionClipboardSharingSize (intValue o.clipboardSharingSize)) else none := by
    obtain ⟨hne, hchars⟩ := formatInt_chars o.clipboardSharingSize
    have hline : optionText ['\t'] "clipboardSharingSize" (formatInt o.clipboardSharingSize) =
        ['\t'] ++ ("clipboardSharingSize".toList ++ " = ".toList ++ formatInt o.clipboardSharingSize) := by
      simp only [optionText, List.append_assoc]
    have hrow : ("clipboardSharingSize", kOptionClipboardSharingSize, OptionKind.int) ∈ globalOptions := by decide
    have htext : LineText (formatInt o.clipboardSharingSize) :=
      lineText_of_word hne fun c hc => ⟨(isWordChar_iff (hchars c hc)).1, (isWordChar_iff (hchars c hc)).2.1,
        (isWordChar_iff (hchars c hc)).2.2.1⟩
    rw [hline, next_globalOption hrow htext (parse_wordValue hne hchars [' '] (by decide)) (by simp) hs]
    change (parseInt _).toOption.map _ = _
    rw [parseInt_nat]
    split_ifs <;> rfl
  have hrun := runFrom_around (o := (kOptionClipboardSharingSize, intValue o.clipboardSharingSize)) hbefore hbehind hsize hinside
  have hcorners : cornersMask (fun _ => false) = kNoCornerMask := by decide
  simpa only [LayoutOptions.lines, readOptions, LayoutOptions.optionList, hcorners, List.append_assoc, List.cons_append,
    List.nil_append] using hrun

end Options

section Newlines

lemma isLineChar_ne_newline {line : Name} (h : ∀ c ∈ line, isLineChar c = true) : '\n' ∉ line :=
  fun hmem => absurd (h _ hmem) (by decide)

lemma isWordChar_ne_newline {word : Name} (h : ∀ c ∈ word, isWordChar c = true) : '\n' ∉ word :=
  fun hmem => absurd (h _ hmem) (by decide)

lemma name_ne_newline {name : Name} (h : Reading.isValidScreenName name = true) : '\n' ∉ name :=
  isWordChar_ne_newline fun c hc => isWordChar_of_isNameChar ((isNameChar_of_valid h).2 c hc)

lemma header_ne_newline {name : Name} (h : Reading.isValidScreenName name = true) : '\n' ∉ header name := by
  simp [header, name_ne_newline h]

lemma optionText_ne_newline {indent value : Name} {name : String} (hindent : '\n' ∉ indent) (hname : '\n' ∉ name.toList)
    (hvalue : '\n' ∉ value) : '\n' ∉ optionText indent name value := by
  simp [optionText, hindent, hname, hvalue]

lemma formatInt_ne_newline (n : ℤ) : '\n' ∉ formatInt n := isWordChar_ne_newline (formatInt_chars n).2

lemma cornersText_ne_newline (corners : Fin 4 → Bool) : '\n' ∉ cornersText corners := by
  revert corners
  decide

lemma boolText_ne_newline (on : Bool) : '\n' ∉ boolText on := by
  revert on
  decide

lemma screenLines_ne_newline {s : ScreenConfig} (h : Reading.isValidScreenName s.name = true) :
    ∀ line ∈ s.screenLines, '\n' ∉ line := by
  have hmodifier : ∀ (i : Fin 5) (j : Fin 6), '\n' ∉ optionText "\t\t".toList (modifierNames.get i.castSucc)
      (modifierNames.get j).toList := by decide
  have hfix : ∀ (i : Fin 5), '\n' ∉ (fixNames.get i).toList := by decide
  intro line hline
  rw [ScreenConfig.screenLines] at hline
  rcases List.mem_append.mp hline with hline | hline
  · rcases List.mem_append.mp hline with hline | hline
    · rcases List.mem_cons.mp hline with rfl | hline
      · exact header_ne_newline h
      · obtain ⟨i, -, rfl⟩ := List.mem_map.mp hline
        exact hmodifier i _
    · obtain ⟨i, -, rfl⟩ := List.mem_map.mp hline
      exact optionText_ne_newline (by decide) (hfix i) (boolText_ne_newline _)
  · simp only [List.mem_cons, List.not_mem_nil, or_false] at hline
    rcases hline with rfl | rfl
    · exact optionText_ne_newline (by decide) (by decide) (cornersText_ne_newline _)
    · exact optionText_ne_newline (by decide) (by decide) (formatInt_ne_newline _)

lemma optionLines_ne_newline (o : LayoutOptions) : ∀ line ∈ o.lines, '\n' ∉ line := by
  have hflag {on : Bool} {text line : Name} (htext : '\n' ∉ text) (h : line ∈ if on then [text] else []) : '\n' ∉ line := by
    cases on
    · simp at h
    · rw [List.mem_singleton.mp h]
      exact htext
  intro line hline
  simp only [LayoutOptions.lines, List.mem_append, List.mem_cons, List.not_mem_nil, or_false] at hline
  rcases hline with (((h | h) | h) | h) | h
  · exact hflag (optionText_ne_newline (by decide) (by decide) (formatInt_ne_newline _)) h
  · rcases h with rfl | rfl | rfl | rfl | rfl
    all_goals
      apply optionText_ne_newline (by decide) (by decide)
      first | exact boolText_ne_newline _ | exact formatInt_ne_newline _
  · exact hflag (optionText_ne_newline (by decide) (by decide) (formatInt_ne_newline _)) h
  · exact hflag (optionText_ne_newline (by decide) (by decide) (formatInt_ne_newline _)) h
  · rcases h with rfl | rfl | rfl | rfl
    all_goals
      apply optionText_ne_newline (by decide) (by decide)
      first | exact boolText_ne_newline _ | exact formatInt_ne_newline _ | exact cornersText_ne_newline _

lemma section_ne_newline (sect : SectionName) {lines : List Name} (h : ∀ line ∈ lines, '\n' ∉ line) :
    ∀ line ∈ sectionText sect lines, '\n' ∉ line := by
  intro line hline
  simp only [sectionText, sectionLines, List.cons_append, List.mem_cons, List.mem_append, List.not_mem_nil, or_false] at hline
  rcases hline with rfl | (hline | rfl) | rfl
  · cases sect <;> decide
  · exact h line hline
  · decide
  · simp

lemma aliasLines_ne_newline (h : m.NamesFit) {s : ScreenConfig} (hs : s ∈ m.screens) :
    ∀ line ∈ s.aliasLines, '\n' ∉ line := by
  intro line hline
  rw [ScreenConfig.aliasLines] at hline
  split_ifs at hline
  · simp at hline
  · rcases List.mem_cons.mp hline with rfl | hline
    · exact header_ne_newline (h.valid _ (name_mem hs))
    · obtain ⟨name, hname, rfl⟩ := List.mem_map.mp hline
      simp [name_ne_newline (h.valid _ (alias_mem hs hname))]

lemma linkLines_ne_newline (h : m.NamesFit) : ∀ line ∈ m.linkLines, '\n' ∉ line := by
  intro line hline
  obtain ⟨⟨u, i⟩, hu, hline⟩ := List.mem_flatMap.mp hline
  rcases List.mem_cons.mp hline with rfl | hline
  · exact header_ne_newline (h.valid _ (name_mem (List.fst_mem_of_mem_zipIdx hu)))
  · obtain ⟨link, hlink, rfl⟩ := List.mem_map.mp hline
    obtain ⟨text, htext, -, heq⟩ := lineText_link h (List.mem_of_mem_filter hlink)
    rw [heq, List.mem_append]
    rintro (hmem | hmem)
    · exact absurd hmem (by decide)
    · exact isLineChar_ne_newline htext.chars hmem

lemma displaysLines_ne_newline (h : m.NamesFit) : ∀ line ∈ m.displaysLines, '\n' ∉ line := by
  intro line hline
  obtain ⟨s, hs, rfl⟩ := List.mem_map.mp hline
  obtain ⟨hne, hchars⟩ := isNameChar_of_valid (h.valid _ (name_mem (List.mem_of_mem_filter hs)))
  have hclean := displaysLine_clean (displayRectsOf s) hne fun c hc => isWordChar_of_isNameChar (hchars c hc)
  have hline : displaysLine s.name (displayRectsOf s) =
      '\t' :: (s.name ++ " =".toList ++ (displayRectsOf s).flatMap Config.writeDisplay) := by
    simp [displaysLine]
  rw [displaysLine_eq, hline, List.mem_cons]
  rintro (hmem | hmem)
  · exact absurd hmem (by decide)
  · exact isLineChar_ne_newline hclean.chars hmem

end Newlines

/-- The numbers of the layout are those of `int`. -/
structure InRange (m : LayoutModel) : Prop where
  options : OptionsInRange m.options
  screens : ∀ s ∈ m.screens, IsInt32 s.cornerSize ∧ ∀ d ∈ s.displays, DisplayInRange d

def LinksTaken (resolves : Name → Bool) (m : LayoutModel) : Prop :=
  (runFrom (Reading.next resolves) m.linkLines ⟨⟨⟨m.named, []⟩, none⟩, some .links, []⟩).isSome = true

def OptionsRead (resolves : Name → Bool) (lower : ℕ → ℕ) (m : LayoutModel) : Prop :=
  ∃ text file, m.configText lower = some text ∧ readConfig resolves text = .ok file ∧
    file.config.globalOptions = optionMap m.options.optionList ∧
    ∀ s ∈ m.screens, file.config.getOptions s.name = some (optionMap s.optionList)

structure Accepted (m : LayoutModel) : Prop where
  size : m.options.clipboardSharingSize < 2 ^ 31
  aliases : ∀ s ∈ m.screens, "end".toList ∉ s.aliases
  displays : ∀ s ∈ m.screens, DisplaysRead s

/-- No corner of the whole desktop is dead, the size of the clipboard is one of `int`, no alias is the word that ends a
section, and no computer has more displays than are read. -/
structure Carried (m : LayoutModel) : Prop extends Accepted m where
  corners : ∀ i, m.options.switchCorners i = false

def configSections (m : LayoutModel) : List Name :=
  sectionText .screens (m.screens.flatMap ScreenConfig.screenLines) ++
    sectionText .aliases (m.screens.flatMap ScreenConfig.aliasLines) ++ sectionText .links m.linkLines ++
    (if m.displaysLines = [] then [] else sectionText .displays m.displaysLines) ++
    sectionText .options m.options.lines

lemma configLines_eq (hhotkeys : m.hotkeys = []) (lower : ℕ → ℕ) : m.configLines lower = some m.configSections := by
  rw [configLines, hhotkeys]
  simp [configSections]

def nameSections (m : LayoutModel) : List Name :=
  sectionText .screens (m.screens.flatMap ScreenConfig.screenLines) ++
    sectionText .aliases (m.screens.flatMap ScreenConfig.aliasLines)

lemma nameSections_ne_newline (h : m.NamesFit) : ∀ line ∈ m.nameSections, '\n' ∉ line := by
  intro line hline
  rcases List.mem_append.mp hline with hline | hline
  · refine section_ne_newline _ (fun line hline => ?_) line hline
    obtain ⟨s, hs, hline⟩ := List.mem_flatMap.mp hline
    exact screenLines_ne_newline (h.valid _ (name_mem hs)) line hline
  · refine section_ne_newline _ (fun line hline => ?_) line hline
    obtain ⟨s, hs, hline⟩ := List.mem_flatMap.mp hline
    exact aliasLines_ne_newline h hs line hline

lemma configSections_ne_newline (h : m.NamesFit) : ∀ line ∈ m.configSections, '\n' ∉ line := by
  intro line hline
  simp only [configSections, List.mem_append] at hline
  rcases hline with ((hline | hline) | hline) | hline
  · exact nameSections_ne_newline h line (List.mem_append.mpr hline)
  · exact section_ne_newline _ (linkLines_ne_newline h) line hline
  · split_ifs at hline
    · simp at hline
    · exact section_ne_newline _ (displaysLines_ne_newline h) line hline
  · exact section_ne_newline _ (optionLines_ne_newline _) line hline

lemma runFrom_linkSection (h : m.NamesFit) (hlinks : m.LinksTaken resolves) (screen : Name) :
    ∃ t, runFrom (Reading.next resolves) (sectionText .links m.linkLines) ⟨⟨⟨m.named, []⟩, none⟩, none, screen⟩ = some t ∧
      SameOptions ⟨⟨⟨m.named, []⟩, none⟩, none, screen⟩ t := by
  obtain ⟨t, ht⟩ := Option.isSome_iff_exists.mp hlinks
  have hsame := sameOptions_linkLines h rfl ht
  refine ⟨{ t with inside := none }, ?_, rfl, hsame.names, hsame.globalOptions, hsame.options⟩
  rw [runFrom_sectionText, runFrom_section rfl]
  · rw [ht]
    rfl
  · intro u hu
    rw [ht] at hu
    rw [← Option.some.inj hu, hsame.inside]

lemma runFrom_displaysSection (h : m.NamesFit) (hrange : m.InRange) {s : Reading} (hs : s.inside = none)
    (hnames : s.config.nameToCanonicalName = m.named.nameToCanonicalName) :
    ((∀ u ∈ m.screens, DisplaysRead u) ∧ ∃ t, runFrom (Reading.next resolves)
      (if m.displaysLines = [] then [] else sectionText .displays m.displaysLines) s = some t ∧ SameOptions s t) ∨
    (¬∀ u ∈ m.screens, DisplaysRead u) ∧ runFrom (Reading.next resolves)
      (if m.displaysLines = [] then [] else sectionText .displays m.displaysLines) s = none := by
  have hall : (∀ u ∈ m.screens, DisplaysRead u) ↔
      ∀ u ∈ m.screens.filter (fun u => decide (2 ≤ u.displays.length)), DisplaysRead u := by
    refine ⟨fun h u hu => h u (List.mem_of_mem_filter hu), fun h u hu hlong => ?_⟩
    exact h u (List.mem_filter.mpr ⟨hu, decide_eq_true hlong⟩) hlong
  by_cases hnil : m.displaysLines = []
  · rw [if_pos hnil]
    refine .inl ⟨?_, s, rfl, .refl s⟩
    rw [hall, List.map_eq_nil_iff.mp hnil]
    simp
  · rw [if_neg hnil, runFrom_sectionText, hall]
    have hcanonical (u : ScreenConfig) (hu : u ∈ m.screens) : s.config.getCanonicalName u.name = u.name := by
      rw [Config.getCanonicalName, hnames]
      exact h.getCanonicalName_named hu
    have hrun := @runFrom_displaysLines resolves { s with inside := some .displays, screen := [] } rfl
      (m.screens.filter fun u => decide (2 ≤ u.displays.length))
      (fun u hu => ⟨h.valid _ (name_mem (List.mem_of_mem_filter hu)), hcanonical u (List.mem_of_mem_filter hu)⟩)
      (fun u hu => of_decide_eq_true (List.mem_filter.mp hu).2)
      (fun u hu => (hrange.screens u (List.mem_of_mem_filter hu)).2)
    rcases hrun with ⟨hread, t, ht, hsame⟩ | ⟨hread, hnone⟩
    · refine .inl ⟨hread, { t with inside := none }, ?_, hs.symm, hsame.names, hsame.globalOptions, hsame.options⟩
      rw [displaysLines, runFrom_section hs]
      · rw [ht]
        rfl
      · intro u hu
        rw [ht] at hu
        rw [← Option.some.inj hu, hsame.inside]
    · refine .inr ⟨hread, ?_⟩
      rw [displaysLines, runFrom_section hs]
      · rw [hnone]
        rfl
      · intro u hu
        rw [hnone] at hu
        simp at hu

lemma runFrom_optionSection (ho : OptionsInRange m.options) {s : Reading} (hs : s.inside = none) :
    runFrom (Reading.next resolves) (sectionText .options m.options.lines) s =
      if m.options.clipboardSharingSize < 2 ^ 31
      then some { addOptions { s with inside := some .options, screen := [] } (readOptions m.options) with inside := none }
      else none := by
  have hrun := @runFrom_options resolves { s with inside := some .options, screen := [] } m.options ho rfl
  rw [runFrom_sectionText, runFrom_section hs]
  · rw [hrun]
    split_ifs <;> rfl
  · intro t ht
    rw [hrun] at ht
    split_ifs at ht
    rw [← Option.some.inj ht, (addOptions_config _ _).2]

lemma runFrom_sections (h : m.NamesFit) (hrange : m.InRange) (hlinks : m.LinksTaken resolves) :
    (m.Accepted ∧ ∃ t, runFrom (Reading.next resolves) m.configSections .start = some t ∧ t.inside = none ∧
      t.config.globalOptions = optionMap (readOptions m.options) ∧
      ∀ name, (t.config.map.find? name).map Cell.options = (m.named.map.find? name).map Cell.options) ∨
    ¬m.Accepted ∧ runFrom (Reading.next resolves) m.configSections .start = none := by
  obtain ⟨screen, hscreens⟩ := @runFrom_screenSection m resolves h fun s hs => (hrange.screens s hs).1
  rw [configSections]
  simp only [List.append_assoc]
  rw [runFrom_append, hscreens, Option.bind_some, runFrom_append]
  rcases @runFrom_aliasSection m resolves h screen with ⟨hend, screen', haliases⟩ | ⟨hend, haliases⟩
  swap
  · rw [haliases]
    exact .inr ⟨fun haccepted => hend haccepted.aliases, rfl⟩
  obtain ⟨t, ht, hsame⟩ := runFrom_linkSection h hlinks screen'
  rw [haliases, Option.bind_some, runFrom_append, ht, Option.bind_some, runFrom_append]
  rcases @runFrom_displaysSection m resolves h hrange t hsame.inside hsame.names with
    ⟨hdisplays, u, hu, hsame'⟩ | ⟨hdisplays, hnone⟩
  swap
  · rw [hnone]
    exact .inr ⟨fun haccepted => hdisplays haccepted.displays, rfl⟩
  have hboth := hsame.trans hsame'
  rw [hu, Option.bind_some, runFrom_optionSection hrange.options hboth.inside]
  by_cases hsize : m.options.clipboardSharingSize < 2 ^ 31
  · rw [if_pos hsize]
    obtain ⟨hconfig, -⟩ := addOptions_config (readOptions m.options) { u with inside := some .options, screen := [] }
    refine .inl ⟨⟨hsize, hend, hdisplays⟩, _, rfl, rfl, ?_, fun name => ?_⟩
    · dsimp only
      rw [hconfig]
      dsimp only
      rw [hboth.globalOptions]
      exact congrArg (fun r => (readOptions m.options).foldl (fun r o => r.insert o.1 o.2) r) m.named_globalOptions
    · dsimp only
      rw [hconfig]
      exact hboth.options name
  · rw [if_neg hsize]
    exact .inr ⟨fun haccepted => hsize haccepted.size, rfl⟩

lemma optionIds_nodup (o : LayoutOptions) : (o.optionList.map Prod.fst).Nodup := by
  have hids : ∀ a b c : Bool, ((if a then [kOptionHeartbeat] else []) ++
      [kOptionRelativeMouseMoves, kOptionScreenSaverSync, kOptionWin32KeepForeground, kOptionClipboardSharing,
        kOptionClipboardSharingSize] ++ (if b then [kOptionScreenSwitchDelay] else []) ++
      (if c then [kOptionScreenSwitchTwoTap] else []) ++ [kOptionScreenSwitchCorners, kOptionScreenSwitchCornerSize,
        kOptionScreenDimmingEnabled, kOptionScreenDimmingPercentage] : List OptionID).Nodup := by decide
  rw [LayoutOptions.optionList, List.map_append, List.map_append, List.map_append, List.map_append, apply_ite (List.map _),
    apply_ite (List.map _), apply_ite (List.map _)]
  exact hids _ _ _

lemma mem_optionMap {os : List (OptionID × OptionValue)} (h : (os.map Prod.fst).Nodup) {o : OptionID × OptionValue} :
    o ∈ (optionMap os).entries ↔ o ∈ os := by
  have hdistinct : os.Pairwise fun a b => a.1 ≠ b.1 := List.pairwise_map.mp h
  rw [optionMap, OrdMap.mem_foldl_insert (by simp [OrdMap.contains_eq_false, OrdMap.empty]) hdistinct]
  simp [OrdMap.empty]

lemma cornersMask_eq_zero (corners : Fin 4 → Bool) : cornersMask corners = kNoCornerMask ↔ ∀ i, corners i = false := by
  revert corners
  decide

lemma readOptions_eq_iff (o : LayoutOptions) :
    optionMap (readOptions o) = optionMap o.optionList ↔ ∀ i, o.switchCorners i = false := by
  constructor
  · intro heq
    have hcorner : (kOptionScreenSwitchCorners, cornersMask o.switchCorners) ∈ (optionMap (readOptions o)).entries := by
      rw [heq, mem_optionMap (optionIds_nodup o)]
      simp [LayoutOptions.optionList]
    have hnone : (kOptionScreenSwitchCorners, cornersMask fun _ => false) ∈ (optionMap (readOptions o)).entries := by
      rw [readOptions, mem_optionMap (optionIds_nodup _)]
      simp [LayoutOptions.optionList]
    have hsame := OrdMap.entry_unique hcorner hnone rfl
    rw [← cornersMask_eq_zero, (Prod.mk.inj hsame).2]
    decide
  · intro hcorners
    have hsame : o.switchCorners = fun _ => false := funext hcorners
    rw [readOptions, ← hsame]

section Reading

variable {resolves : Name → Bool} {lower : ℕ → ℕ} {m : LayoutModel}

lemma configText_of_no_hotkeys (hhotkeys : m.hotkeys = []) : m.configText lower = some (unlines m.configSections) := by
  rw [configText, configLines_eq hhotkeys]
  rfl

lemma readConfig_configSections (hnames : m.NamesFit) {file : StoredConfig} :
    readConfig resolves (unlines m.configSections) = .ok file ↔
      ∃ t, runFrom (Reading.next resolves) m.configSections .start = some t ∧ t.inside = none ∧ t.toStoredConfig = file := by
  rw [readConfig_eq_ok, getlines_unlines (configSections_ne_newline hnames)]

lemma OptionsRead.carried (hread : m.OptionsRead resolves lower) (hnames : m.NamesFit) (hhotkeys : m.hotkeys = [])
    (hlinks : m.LinksTaken resolves) (hrange : m.InRange) : m.Carried := by
  obtain ⟨text, file, htext, hfile, hglobal, -⟩ := hread
  obtain rfl : unlines m.configSections = text :=
    Option.some.inj ((configText_of_no_hotkeys hhotkeys).symm.trans htext)
  obtain ⟨t, ht, -, rfl⟩ := (readConfig_configSections hnames).mp hfile
  rcases runFrom_sections hnames hrange hlinks with ⟨haccepted, u, hu, -, hread, -⟩ | ⟨-, hnone⟩
  · obtain rfl : u = t := Option.some.inj (hu.symm.trans ht)
    exact ⟨haccepted, (readOptions_eq_iff _).mp (hread.symm.trans hglobal)⟩
  · rw [hnone] at ht
    cases ht

end Reading

theorem optionsRead_iff (resolves : Name → Bool) (lower : ℕ → ℕ) (m : LayoutModel) (hnames : m.NamesFit)
    (hhotkeys : m.hotkeys = []) (hlinks : m.LinksTaken resolves) (hrange : m.InRange) :
    m.OptionsRead resolves lower ↔ m.Carried := by
  have hoptions {s : ScreenConfig} (hs : s ∈ m.screens) :
      (m.named.map.find? s.name).map Cell.options = some (optionMap s.optionList) :=
    congrArg (Option.map Cell.options) (hnames.screen hs).2.2
  have hget {c : Config} {s : ScreenConfig} (hs : s ∈ m.screens) :
      c.getOptions s.name = (c.map.find? s.name).map Cell.options :=
    if_neg (isNameChar_of_valid (hnames.valid _ (name_mem hs))).1
  constructor
  · exact fun hread => hread.carried hnames hhotkeys hlinks hrange
  · rintro ⟨haccepted, hcorners⟩
    rcases runFrom_sections hnames hrange hlinks with ⟨-, t, ht, hinside, hglobal, hscreens⟩ | ⟨hnot, -⟩
    · refine ⟨_, t.toStoredConfig, configText_of_no_hotkeys hhotkeys,
        (readConfig_configSections hnames).mpr ⟨t, ht, hinside, rfl⟩, ?_, fun s hs => ?_⟩
      · exact hglobal.trans ((readOptions_eq_iff _).mpr hcorners)
      · exact (hget hs).trans ((hscreens s.name).trans (hoptions hs))
    · exact absurd haccepted hnot

/-- Two computers side by side, one of them with another name, two displays and a dead corner. -/
def sideBySide : LayoutModel :=
  { empty none with
    screens :=
      [{ ScreenConfig.new ['a'] with
          displays := [⟨0, 0, 1920, 1080, 0, 0⟩, ⟨1920, 0, 1920, 1080, 0, 0⟩]
          aliases := [['x']]
          corners := fun i => i.val = 0 },
        { ScreenConfig.new ['b'] with x := 3840 }]
    options := { LayoutOptions.default with hasSwitchDelay := true, dimmingEnabled := true } }

theorem optionsRead_sideBySide : OptionsRead (fun _ => true) id sideBySide := by
  have hnames : sideBySide.NamesFit := ⟨by decide, by decide⟩
  have hrange : sideBySide.InRange := by
    refine ⟨⟨?_, ?_, ?_, ?_, ?_⟩, fun s hs => ?_⟩
    · exact isInt32_iff.mpr (by decide)
    · exact isInt32_iff.mpr (by decide)
    · exact isInt32_iff.mpr (by decide)
    · exact isInt32_iff.mpr (by decide)
    · exact isInt32_iff.mpr (by decide)
    · simp only [DisplayInRange, isInt32_iff]
      revert s hs
      decide
  refine (optionsRead_iff (fun _ => true) id sideBySide hnames rfl (by unfold LinksTaken; decide) hrange).mpr ?_
  exact ⟨⟨by decide, by decide, by decide⟩, by decide⟩

def deadCorner : LayoutModel :=
  { empty none with
    screens := [.new ['a']]
    options := { LayoutOptions.default with switchCorners := fun i => i.val = 0 } }

theorem deadCorner_lost :
    ¬∀ (resolves : Name → Bool) (lower : ℕ → ℕ) (m : LayoutModel), m.NamesFit → m.hotkeys = [] →
      m.LinksTaken resolves → m.InRange → m.OptionsRead resolves lower := by
  intro h
  have hrange : deadCorner.InRange := by
    refine ⟨⟨?_, ?_, ?_, ?_, ?_⟩, fun s hs => ?_⟩
    · exact isInt32_iff.mpr (by decide)
    · exact isInt32_iff.mpr (by decide)
    · exact isInt32_iff.mpr (by decide)
    · exact isInt32_iff.mpr (by decide)
    · exact isInt32_iff.mpr (by decide)
    · simp only [DisplayInRange, isInt32_iff]
      revert s hs
      decide
  have hnames : deadCorner.NamesFit := ⟨by decide, by decide⟩
  have hlinks : deadCorner.LinksTaken fun _ => true := by
    unfold LinksTaken
    decide
  have hcarried := (h _ id deadCorner hnames rfl hlinks hrange).carried hnames rfl hlinks hrange
  exact absurd (hcarried.2 0) (by decide)

end LayoutModel

end InputLeap.Gui
