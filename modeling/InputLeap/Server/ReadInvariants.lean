import InputLeap.Server.OptionLines
import InputLeap.Server.Spelling

/-! What holds of every configuration that is read from a file: its links do not overlap, its options are known to the
reader, and its names are valid. -/

namespace InputLeap

open InputLeap.Lib InputLeap.Lib.Text

lemma Direction.toNat_injective {d e : Direction} (h : d.toNat = e.toNat) : d = e := by
  cases d <;> cases e <;> first | rfl | nomatch h

namespace CellEdge

lemma key_lt {d e : CellEdge} : d.key < e.key ↔ d.side.toNat < e.side.toNat ∨ d.side = e.side ∧ d.first < e.first := by
  rw [key, key, Prod.Lex.toLex_lt_toLex]
  constructor
  · rintro (h | ⟨h, hlt⟩)
    · exact .inl h
    · exact .inr ⟨Direction.toNat_injective h, hlt⟩
  · rintro (h | ⟨h, hlt⟩)
    · exact .inl h
    · exact .inr ⟨congrArg Direction.toNat h, hlt⟩

lemma key_eq {d e : CellEdge} : d.key = e.key ↔ d.side = e.side ∧ d.first = e.first := by
  rw [key, key, toLex_inj, Prod.mk.injEq]
  exact and_congr_left' ⟨Direction.toNat_injective, congrArg _⟩

lemma key_le {d e : CellEdge} : d.key ≤ e.key ↔ d.side.toNat < e.side.toNat ∨ d.side = e.side ∧ d.first ≤ e.first := by
  rw [key, key, Prod.Lex.toLex_le_toLex]
  constructor
  · rintro (h | ⟨h, hle⟩)
    · exact .inl h
    · exact .inr ⟨Direction.toNat_injective h, hle⟩
  · rintro (h | ⟨h, hle⟩)
    · exact .inl h
    · exact .inr ⟨congrArg Direction.toNat h, hle⟩

structure Proper (e : CellEdge) : Prop where
  side : e.side ≠ .noDirection
  nonneg : 0 ≤ e.first
  lt : e.first < e.second
  le_one : e.second ≤ 1

end CellEdge

namespace Cell

/-- The links of a screen. Those of one side do not overlap. -/
structure LinksInv (c : Cell) : Prop where
  proper : ∀ e ∈ c.neighbors.entries, e.1.name = [] ∧ e.1.Proper ∧ e.2.Proper ∧ e.2.side = e.1.side
  disjoint : ∀ d ∈ c.neighbors.entries, ∀ e ∈ c.neighbors.entries, d.1.side = e.1.side → d.1.first < e.1.first →
    d.1.second ≤ e.1.first

variable {c d : Cell} {src dst : CellEdge}

lemma add_eq_some (h : c.add src dst = some d) : (c.hasEdge src = true ∨ c.overlaps src = false) ∧
    d = { c with neighbors := (c.neighbors.erase src).insert src dst } := by
  rw [add] at h
  split_ifs at h with hedge
  refine ⟨?_, (Option.some.inj h).symm⟩
  rcases Bool.eq_false_or_eq_true (c.hasEdge src) with hhas | hhas
  · exact .inl hhas
  · rcases Bool.eq_false_or_eq_true (c.overlaps src) with hover | hover
    · exact absurd (by rw [hhas, hover]; rfl) hedge
    · exact .inr hover

lemma mem_add (h : c.add src dst = some d) {e : CellEdge × CellEdge} :
    e ∈ d.neighbors.entries ↔ e = (src, dst) ∨ e ∈ c.neighbors.entries ∧ e.1.key ≠ src.key := by
  obtain ⟨-, rfl⟩ := add_eq_some h
  have hnew : (c.neighbors.erase src).contains src = false := by
    rw [Bool.eq_false_iff]
    intro hcontains
    exact (OrdMap.contains_erase.mp hcontains).2 rfl
  rw [OrdMap.mem_insert hnew, OrdMap.mem_erase]

lemma overlaps_eq_false_iff {d e : CellEdge} (hside : d.side = e.side) : d.overlaps e = false ↔
    ¬ (e.first ≤ d.first ∧ d.first < e.second ∨ e.first < d.second ∧ d.second ≤ e.second ∨
      d.first ≤ e.first ∧ e.first < d.second ∨ d.first < e.second ∧ e.second ≤ d.second) := by
  rw [CellEdge.overlaps, decide_eq_false_iff_not, and_iff_right hside]

lemma lastLe_of_overlaps (h : c.overlaps src = false) {e : CellEdge × CellEdge} (he : c.neighbors.lastLe? src = some e) :
    e.1.overlaps src = false := by
  rw [overlaps, Bool.or_eq_false_iff, he] at h
  exact h.2

lemma firstGt_of_overlaps (h : c.overlaps src = false) {e : CellEdge × CellEdge}
    (he : c.neighbors.firstGt? src = some e) : e.1.overlaps src = false := by
  rw [overlaps, Bool.or_eq_false_iff, he] at h
  exact h.1

lemma same_of_hasEdge (h : c.hasEdge src = true) :
    ∃ e ∈ c.neighbors.entries, e.1.side = src.side ∧ e.1.first = src.first ∧ e.1.second = src.second := by
  obtain ⟨e, he, hsame⟩ := Option.any_eq_true _ _ |>.mp h
  exact ⟨e, List.mem_of_find?_eq_some he, of_decide_eq_true hsame⟩

def Apart (c : Cell) : Prop :=
  ∀ d ∈ c.neighbors.entries, ∀ e ∈ c.neighbors.entries, d.1.side = e.1.side → d.1.first < e.1.first →
    d.1.second ≤ e.1.first

lemma Apart.before (hinv : c.Apart) (hfree : c.hasEdge src = true ∨ c.overlaps src = false)
    {e : CellEdge × CellEdge} (he : e ∈ c.neighbors.entries) (hside : e.1.side = src.side)
    (hlt : e.1.first < src.first) : e.1.second ≤ src.first := by
  rcases hfree with hhas | hover
  · obtain ⟨d, hd, hdside, hdfirst, -⟩ := same_of_hasEdge hhas
    rw [← hdfirst] at hlt ⊢
    exact hinv e he d hd (hside.trans hdside.symm) hlt
  · obtain ⟨d, hlast, hd, hed, hdsrc⟩ := OrdMap.lastLe?_of_mem he (CellEdge.key_lt.mpr (.inr ⟨hside, hlt⟩)).le
    have hdside : d.1.side = src.side ∧ e.1.first ≤ d.1.first ∧ d.1.first ≤ src.first := by
      rw [CellEdge.key_le] at hed hdsrc
      rcases hed with hed | ⟨hed, hfirst⟩
      · rw [hside] at hed
        rcases hdsrc with hdsrc | ⟨hdsrc, -⟩
        · omega
        · exact absurd (congrArg Direction.toNat hdsrc) (by omega)
      · rcases hdsrc with hdsrc | ⟨hdsrc, hle⟩
        · exact absurd (congrArg Direction.toNat (hed.symm.trans hside)) hdsrc.ne
        · exact ⟨hdsrc, hfirst, hle⟩
    obtain ⟨hdside, hfirst, hle⟩ := hdside
    have hd2 : d.1.second ≤ src.first := by
      have := (overlaps_eq_false_iff hdside).mp (lastLe_of_overlaps hover hlast)
      push Not at this
      exact this.2.2.1 hle
    rcases hfirst.eq_or_lt with heq | hlt'
    · have := OrdMap.entry_unique he hd (CellEdge.key_eq.mpr ⟨hside.trans hdside.symm, heq⟩)
      rwa [this]
    · exact (hinv e he d hd (hside.trans hdside.symm) hlt').trans hle

lemma Apart.behind (hinv : c.Apart) (hfree : c.hasEdge src = true ∨ c.overlaps src = false)
    {e : CellEdge × CellEdge} (he : e ∈ c.neighbors.entries) (hside : src.side = e.1.side)
    (hlt : src.first < e.1.first) : src.second ≤ e.1.first := by
  rcases hfree with hhas | hover
  · obtain ⟨d, hd, hdside, hdfirst, hdsecond⟩ := same_of_hasEdge hhas
    rw [← hdfirst] at hlt
    rw [← hdsecond]
    exact hinv d hd e he (hdside.trans hside) hlt
  · obtain ⟨d, hfirst?, hd, hsrcd, hde⟩ := OrdMap.firstGt?_of_mem he (CellEdge.key_lt.mpr (.inr ⟨hside, hlt⟩))
    have hdside : d.1.side = src.side ∧ src.first < d.1.first ∧ d.1.first ≤ e.1.first := by
      rw [CellEdge.key_lt] at hsrcd
      rw [CellEdge.key_le] at hde
      rcases hde with hde | ⟨hde, hle⟩
      · rw [← hside] at hde
        rcases hsrcd with hsrcd | ⟨hsrcd, -⟩
        · omega
        · exact absurd (congrArg Direction.toNat hsrcd) (by omega)
      · rcases hsrcd with hsrcd | ⟨hsrcd, hlt⟩
        · exact absurd (congrArg Direction.toNat (hside.trans hde.symm)) hsrcd.ne
        · exact ⟨hsrcd.symm, hlt, hle⟩
    obtain ⟨hdside, hlt', hle⟩ := hdside
    have := (overlaps_eq_false_iff hdside).mp (firstGt_of_overlaps hover hfirst?)
    push Not at this
    exact (this.1 hlt'.le).trans hle

lemma Apart.add (hinv : c.Apart) (h : c.add src dst = some d) : d.Apart := by
  have hfree := (add_eq_some h).1
  intro a ha b hb hside hlt
  rcases (mem_add h).mp ha with rfl | ⟨ha, -⟩
  · rcases (mem_add h).mp hb with rfl | ⟨hb, -⟩
    · exact absurd hlt (lt_irrefl _)
    · exact hinv.behind hfree hb hside hlt
  · rcases (mem_add h).mp hb with rfl | ⟨hb, -⟩
    · exact hinv.before hfree ha hside hlt
    · exact hinv a ha b hb hside hlt

lemma LinksInv.add (hinv : c.LinksInv) (hsrc : src.name = [] ∧ src.Proper) (hdst : dst.Proper ∧ dst.side = src.side)
    (h : c.add src dst = some d) : d.LinksInv := by
  refine ⟨?_, Apart.add hinv.disjoint h⟩
  intro e he
  rcases (mem_add h).mp he with rfl | ⟨he, -⟩
  · exact ⟨hsrc.1, hsrc.2, hdst.1, hdst.2⟩
  · exact hinv.proper e he

end Cell

section NameChars

def isNameChar (c : Char) : Bool := c.isAlphanum || c == '_' || c == '-' || c == '.'

lemma isNameChar_iff {c : Char} : isNameChar c = true ↔ (48 ≤ c.toNat ∧ c.toNat ≤ 57) ∨ (65 ≤ c.toNat ∧ c.toNat ≤ 90) ∨
    (97 ≤ c.toNat ∧ c.toNat ≤ 122) ∨ c.toNat = 95 ∨ c.toNat = 45 ∨ c.toNat = 46 := by
  simp only [isNameChar, Bool.or_eq_true, isAlphanum_iff, beq_iff_eq, ← Char.toNat_inj, Char.reduceToNat]
  omega

lemma isNameChar_toLower (c : Char) : isNameChar c.toLower = isNameChar c := by
  rw [Bool.eq_iff_iff, isNameChar_iff, isNameChar_iff, toNat_toLower]
  split_ifs <;> omega

lemma nameChars_caseless {a b : Name} (h : caseless a = caseless b) (hb : ∀ c ∈ b, isNameChar c = true) :
    ∀ c ∈ a, isNameChar c = true := by
  intro c hc
  have hmem : c.toLower ∈ caseless b := h ▸ List.mem_map_of_mem hc
  obtain ⟨d, hd, hlower⟩ := List.mem_map.mp hmem
  rw [← isNameChar_toLower, ← hlower, isNameChar_toLower]
  exact hb d hd

lemma isWordChar_of_isNameChar {c : Char} (h : isNameChar c = true) : isWordChar c = true := by
  have hc := isNameChar_iff.mp h
  have hgraph : isGraph c = true := decide_eq_true (by omega)
  have hne {d : Char} (hd : isNameChar d = false) : c ≠ d := by
    rintro rfl
    exact Bool.false_ne_true (hd ▸ h)
  simp only [isWordChar, hgraph, Bool.true_and, Bool.and_eq_true, bne_iff_ne]
  exact ⟨⟨⟨⟨⟨hne rfl, hne rfl⟩, hne rfl⟩, hne rfl⟩, hne rfl⟩, hne rfl⟩

lemma isNameChar_of_validPart {part : Name} (h : Reading.validPart part = true) : ∀ c ∈ part, isNameChar c = true := by
  intro c hc
  simp only [Reading.validPart, Bool.and_eq_true] at h
  have := List.all_eq_true.mp h.2 c hc
  simp only [isNameChar, Bool.or_eq_true] at this ⊢
  tauto

lemma isNameChar_of_validParts {part s : Name} (h : Reading.validParts part s = true) :
    ∀ c ∈ part ++ s, isNameChar c = true := by
  induction s generalizing part with
  | nil =>
    rw [Reading.validParts, Bool.or_eq_true] at h
    rw [List.append_nil]
    rcases h with h | h
    · simp [of_decide_eq_true h]
    · exact isNameChar_of_validPart h
  | cons c s ih =>
    rw [Reading.validParts] at h
    intro d hd
    split_ifs at h with hdot
    · rw [Bool.and_eq_true] at h
      rcases List.mem_append.mp hd with hd | hd
      · exact isNameChar_of_validPart h.1 d hd
      · rcases List.mem_cons.mp hd with rfl | hd
        · rw [hdot]
          rfl
        · exact ih h.2 d hd
    · apply ih h
      simpa using hd

lemma isNameChar_of_valid {name : Name} (h : Reading.isValidScreenName name = true) :
    name ≠ [] ∧ ∀ c ∈ name, isNameChar c = true := by
  rw [Reading.isValidScreenName, Bool.and_eq_true] at h
  exact ⟨of_decide_eq_true h.1, isNameChar_of_validParts h.2⟩

end NameChars

namespace Config

def KnownOption (table : List (String × OptionID × OptionKind)) (option : OptionID × OptionValue) : Prop :=
  ∃ row ∈ table, row.2.1 = option.1 ∧ row.2.2.Valid option.2

structure StoredInv (c : Config) : Prop extends ReadNames c where
  validNames : ∀ e ∈ c.nameToCanonicalName.entries, Reading.isValidScreenName e.1 = true
  options : ∀ option ∈ c.globalOptions.entries, KnownOption InputLeap.globalOptions option
  screenOptions : ∀ e ∈ c.map.entries, ∀ option ∈ e.2.options.entries, KnownOption InputLeap.screenOptions option
  links : ∀ e ∈ c.map.entries, e.2.LinksInv
  destinations : ∀ e ∈ c.map.entries, ∀ link ∈ e.2.neighbors.entries, c.isScreen link.2.name = true
  displayNames : ∀ e ∈ c.displays.entries, e.1 ∈ c.nameToCanonicalName.entries.map Prod.snd
  displayRects : ∀ e ∈ c.displays.entries, e.2 ≠ [] ∧ e.2.length ≤ 32 ∧ ∀ d ∈ e.2, Reading.ProperDisplay d

section Steps

variable {c d : Config}

lemma mem_addOption_global {option : OptionID × OptionValue} {id : OptionID} {v : OptionValue}
    (h : option ∈ ((c.addOption [] id v).getD c).globalOptions.entries) :
    option = (id, v) ∨ option ∈ c.globalOptions.entries := by
  rw [addOption, if_pos rfl] at h
  exact OrdMap.mem_insertEntry h

lemma mem_addOption_screen {name : Name} (hname : name ≠ []) {id : OptionID} {v : OptionValue} {e : Name × Cell}
    (h : e ∈ ((c.addOption name id v).getD c).map.entries) :
    ∃ cell, (e.1, cell) ∈ c.map.entries ∧ e.2.neighbors = cell.neighbors ∧
      ∀ option ∈ e.2.options.entries, option = (id, v) ∨ option ∈ cell.options.entries := by
  rw [addOption, if_neg hname] at h
  split_ifs at h
  · obtain ⟨d, hd, rfl⟩ := List.mem_map.mp h
    split_ifs
    · exact ⟨d.2, hd, rfl, fun option hoption => OrdMap.mem_insertEntry hoption⟩
    · exact ⟨d.2, hd, rfl, fun option hoption => .inr hoption⟩
  · exact ⟨e.2, h, rfl, fun option hoption => .inr hoption⟩

lemma addOption_other (name : Name) (id : OptionID) (v : OptionValue) :
    ((c.addOption name id v).getD c).displays = c.displays ∧
      (name ≠ [] → ((c.addOption name id v).getD c).globalOptions = c.globalOptions) ∧
      (name = [] → ((c.addOption name id v).getD c).map = c.map) := by
  rw [addOption]
  split_ifs with hname
  · exact ⟨rfl, fun h => absurd hname h, fun _ => rfl⟩
  · exact ⟨rfl, fun _ => rfl, fun h => absurd h hname⟩
  · exact ⟨rfl, fun _ => rfl, fun h => absurd h hname⟩

lemma mem_connect {srcName dstName : Name} {side : Direction} {a b a' b' : ℚ}
    (h : c.connect srcName side a b dstName a' b' = some d) :
    d.globalOptions = c.globalOptions ∧ d.displays = c.displays ∧
    CellEdge.Proper ⟨[], side, a, b⟩ ∧ CellEdge.Proper ⟨dstName, side, a', b'⟩ ∧
    ∀ e ∈ d.map.entries, ∃ cell, (e.1, cell) ∈ c.map.entries ∧
      (e.2 = cell ∨ cell.add ⟨[], side, a, b⟩ ⟨dstName, side, a', b'⟩ = some e.2) := by
  rw [connect] at h
  split_ifs at h with hproper
  obtain ⟨hside, ha, hab, hb, ha', hab', hb'⟩ := hproper
  split at h
  · cases h
  · rename_i cell hfind
    obtain ⟨cell', hadd, rfl⟩ := Option.map_eq_some_iff.mp h
    refine ⟨rfl, rfl, ⟨hside, ha, hab, hb⟩, ⟨hside, ha', hab', hb'⟩, ?_⟩
    intro e he
    obtain ⟨e', he', rfl⟩ := List.mem_map.mp he
    split_ifs with hkey
    · obtain ⟨n, hn, hmem⟩ := OrdMap.find?_eq_some.mp hfind
      have hsame := OrdMap.entry_unique hmem he' (hn.trans hkey.symm)
      exact ⟨cell, by rw [← hsame]; exact hmem, .inr hadd⟩
    · exact ⟨e'.2, he', .inl rfl⟩

lemma isScreen_mono (h : ∀ e ∈ c.nameToCanonicalName.entries, e ∈ d.nameToCanonicalName.entries) {name : Name}
    (hname : c.isScreen name = true) : d.isScreen name = true := by
  obtain ⟨n, hn, hmem⟩ := mem_of_isScreen hname
  exact OrdMap.contains_iff.mpr ⟨_, h _ hmem, hn⟩

end Steps

end Config

namespace Reading

variable {resolves : Name → Bool} {s t : Reading}

lemma Step.names_mono (h : Step resolves s t) :
    ∀ e ∈ s.config.nameToCanonicalName.entries, e ∈ t.config.nameToCanonicalName.entries := by
  intro e he
  rcases step_names h with ⟨-, hnames⟩ | ⟨screen, -, hadd⟩ | ⟨name, -, -, hadd⟩
  · exact hnames ▸ he
  · exact (Config.mem_names_addScreen hadd).mpr (.inr he)
  · exact ((Config.addAlias_eq_some hadd).2 e).mpr (.inr he)

lemma Step.validNames (h : Step resolves s t)
    (hinv : ∀ e ∈ s.config.nameToCanonicalName.entries, isValidScreenName e.1 = true) :
    ∀ e ∈ t.config.nameToCanonicalName.entries, isValidScreenName e.1 = true := by
  intro e he
  rcases step_names h with ⟨-, hnames⟩ | ⟨screen, hvalid, hadd⟩ | ⟨name, -, hvalid, hadd⟩
  · exact hinv e (hnames ▸ he)
  · rcases (Config.mem_names_addScreen hadd).mp he with rfl | he
    · exact hvalid
    · exact hinv e he
  · rcases ((Config.addAlias_eq_some hadd).2 e).mp he with rfl | he
    · exact hvalid
    · exact hinv e he

lemma knownOption {table : List (String × OptionID × OptionKind)} {name value : Name} {option : OptionID}
    {kind : OptionKind} {v : OptionValue} (hname : optionNamed table name = some (option, kind))
    (hv : kind.parse value = .ok v) : Config.KnownOption table (option, v) := by
  obtain ⟨row, hfind, hrow⟩ := Option.map_eq_some_iff.mp hname
  refine ⟨row, List.mem_of_find?_eq_some hfind, ?_, ?_⟩
  · rw [hrow]
  · rw [hrow]
    exact parse_valid hv

lemma Step.options (h : Step resolves s t)
    (hinv : ∀ option ∈ s.config.globalOptions.entries, Config.KnownOption globalOptions option) :
    ∀ option ∈ t.config.globalOptions.entries, Config.KnownOption globalOptions option := by
  intro option hoption
  cases h with
  | skip | enter | leave | address | rule | header | displays => exact hinv option hoption
  | option hname hv =>
    rcases Config.mem_addOption_global hoption with rfl | hoption
    · exact knownOption hname hv
    · exact hinv option hoption
  | screenOption _ _ _ hscreen => exact hinv option ((Config.addOption_other _ _ _).2.1 hscreen ▸ hoption)
  | addScreen _ hadd =>
    rw [Config.addScreen] at hadd
    split_ifs at hadd
    cases hadd
    exact hinv option hoption
  | link _ _ hconnect => exact hinv option ((Config.mem_connect hconnect).1 ▸ hoption)
  | addAlias _ hadd =>
    rw [Config.addAlias] at hadd
    split_ifs at hadd
    cases hadd
    exact hinv option hoption

lemma Step.cells (h : Step resolves s t) {e : Name × Cell} (he : e ∈ t.config.map.entries) :
    e.2 = .empty ∨ ∃ cell, (e.1, cell) ∈ s.config.map.entries ∧
      (∀ option ∈ e.2.options.entries, Config.KnownOption screenOptions option ∨ option ∈ cell.options.entries) ∧
      (e.2.neighbors = cell.neighbors ∨ ∃ src dst : CellEdge, src.name = [] ∧ src.Proper ∧ dst.Proper ∧
        dst.side = src.side ∧ s.config.isScreen dst.name = true ∧ cell.add src dst = some e.2) := by
  have hsame (he : e ∈ s.config.map.entries) : ∃ cell, (e.1, cell) ∈ s.config.map.entries ∧
      (∀ option ∈ e.2.options.entries, Config.KnownOption screenOptions option ∨ option ∈ cell.options.entries) ∧
      (e.2.neighbors = cell.neighbors ∨ ∃ src dst : CellEdge, src.name = [] ∧ src.Proper ∧ dst.Proper ∧
        dst.side = src.side ∧ s.config.isScreen dst.name = true ∧ cell.add src dst = some e.2) :=
    ⟨e.2, he, fun _ hoption => .inr hoption, .inl rfl⟩
  cases h with
  | skip | enter | leave | address | rule | header | displays => exact .inr (hsame he)
  | option => exact .inr (hsame ((Config.addOption_other _ _ _).2.2 rfl ▸ he))
  | screenOption hname hv _ hscreen =>
    obtain ⟨cell, hcell, hneighbors, hoptions⟩ := Config.mem_addOption_screen hscreen he
    refine .inr ⟨cell, hcell, fun option hoption => ?_, .inl hneighbors⟩
    rcases hoptions option hoption with rfl | hoption
    · exact .inl (knownOption hname hv)
    · exact .inr hoption
  | addScreen _ hadd =>
    rw [Config.addScreen] at hadd
    split_ifs at hadd
    cases hadd
    rcases OrdMap.mem_insertEntry he with rfl | he
    · exact .inl rfl
    · exact .inr (hsame he)
  | link hname hdst hconnect =>
    obtain ⟨-, -, hsrc, hdst', hcells⟩ := Config.mem_connect hconnect
    obtain ⟨cell, hcell, heq | hadd⟩ := hcells e he
    · subst heq
      exact .inr (hsame hcell)
    · refine .inr ⟨cell, hcell, fun option hoption => ?_, .inr ⟨_, _, rfl, hsrc, hdst', rfl, hdst, hadd⟩⟩
      rw [(Cell.add_eq_some hadd).2] at hoption
      exact .inr hoption
  | addAlias _ hadd =>
    exact .inr (hsame ((Config.addAlias_eq_some hadd).1 ▸ he))

lemma Step.displayEntries (h : Step resolves s t) {e : Name × List DisplayRect} (he : e ∈ t.config.displays.entries) :
    e ∈ s.config.displays.entries ∨ e.1 ∈ s.config.nameToCanonicalName.entries.map Prod.snd ∧
      e.2 ≠ [] ∧ e.2.length ≤ 32 ∧ ∀ d ∈ e.2, ProperDisplay d := by
  cases h with
  | skip | enter | leave | address | rule | header => exact .inl he
  | option | screenOption => exact .inl ((Config.addOption_other _ _ _).1 ▸ he)
  | addScreen _ hadd =>
    rw [Config.addScreen] at hadd
    split_ifs at hadd
    cases hadd
    exact .inl he
  | link _ _ hconnect => exact .inl ((Config.mem_connect hconnect).2.1 ▸ he)
  | addAlias _ hadd =>
    rw [Config.addAlias] at hadd
    split_ifs at hadd
    cases hadd
    exact .inl he
  | displays hname hcanonical hlength hproper =>
    rcases OrdMap.mem_insertEntry he with rfl | he
    · subst hname
      obtain ⟨n, hmem⟩ := Config.getCanonicalName_mem hcanonical
      exact .inr ⟨List.mem_map.mpr ⟨_, hmem, rfl⟩, hlength.1, hlength.2, hproper⟩
    · exact .inl (OrdMap.mem_erase.mp he).1

lemma Step.storedInv (h : Step resolves s t) (hinv : s.config.StoredInv) : t.config.StoredInv := by
  have hmono := h.names_mono
  refine ⟨h.readNames hinv.toReadNames, h.validNames hinv.validNames, h.options hinv.options, ?_, ?_, ?_, ?_, ?_⟩
  · intro e he option hoption
    rcases h.cells he with hempty | ⟨cell, hcell, hoptions, -⟩
    · rw [hempty] at hoption
      nomatch hoption
    · rcases hoptions option hoption with hknown | hold
      · exact hknown
      · exact hinv.screenOptions _ hcell option hold
  · intro e he
    rcases h.cells he with hempty | ⟨cell, hcell, -, hneighbors | ⟨src, dst, hname, hsrc, hdst, hside, -, hadd⟩⟩
    · rw [hempty]
      refine ⟨?_, ?_⟩
      · intro _ he
        nomatch he
      · intro _ hd
        nomatch hd
    · obtain ⟨hproper, hdisjoint⟩ := hinv.links _ hcell
      exact ⟨hneighbors ▸ hproper, hneighbors ▸ hdisjoint⟩
    · exact (hinv.links _ hcell).add ⟨hname, hsrc⟩ ⟨hdst, hside⟩ hadd
  · intro e he link hlink
    rcases h.cells he with hempty | ⟨cell, hcell, -, hneighbors | ⟨src, dst, -, -, -, -, hscreen, hadd⟩⟩
    · rw [hempty] at hlink
      nomatch hlink
    · rw [hneighbors] at hlink
      exact Config.isScreen_mono hmono (hinv.destinations _ hcell link hlink)
    · rcases (Cell.mem_add hadd).mp hlink with rfl | ⟨hlink, -⟩
      · exact Config.isScreen_mono hmono hscreen
      · exact Config.isScreen_mono hmono (hinv.destinations _ hcell link hlink)
  · intro e he
    have hnames : e.1 ∈ s.config.nameToCanonicalName.entries.map Prod.snd := by
      rcases h.displayEntries he with he | ⟨hname, -⟩
      · exact hinv.displayNames e he
      · exact hname
    obtain ⟨name, hmem, heq⟩ := List.mem_map.mp hnames
    exact List.mem_map.mpr ⟨name, hmono name hmem, heq⟩
  · intro e he
    rcases h.displayEntries he with he | ⟨-, hrects⟩
    · exact hinv.displayRects e he
    · exact hrects

lemma storedInv_start : start.config.StoredInv := by
  refine ⟨readNames_start, ?_, ?_, ?_, ?_, ?_, ?_, ?_⟩
  all_goals exact fun _ h => nomatch h

end Reading

/-- Every configuration that is read is well formed. -/
theorem readConfig_storedInv {resolves : Name → Bool} {text : Name} {file : StoredConfig}
    (h : readConfig resolves text = .ok file) : file.config.StoredInv := by
  obtain ⟨t, hinv, rfl⟩ := readConfig_invariant (I := fun s => s.config.StoredInv) Reading.storedInv_start
    (fun _ _ hs hstep => hstep.storedInv hs) h
  exact hinv

end InputLeap
