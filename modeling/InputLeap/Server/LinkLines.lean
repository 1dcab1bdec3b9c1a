import InputLeap.Server.ScreenLines
import Mathlib.Algebra.Order.Floor.Defs
import Mathlib.Data.Rat.Floor
import Mathlib.Tactic.Linarith
import Mathlib.Tactic.FieldSimp

/-! The section of links as it is written and read again. Positions are written in whole percent; rounding keeps the
order of the intervals on a side, but an interval may become empty. -/

namespace InputLeap

open InputLeap.Lib InputLeap.Lib.Text

section Percent

variable {x y : ℚ}

lemma percent_mono (h : x ≤ y) : percent x ≤ percent y := by
  apply Rat.floor_monotone
  linarith

lemma percent_div (n : ℤ) : percent ((n : ℚ) / 100) = n := by
  rw [percent, div_mul_cancel₀ _ (by norm_num)]
  change ⌊(n : ℚ) + 1 / 2⌋ = n
  rw [Int.floor_eq_iff]
  constructor <;> norm_num

lemma percent_zero : percent 0 = 0 := by
  have h := percent_div 0
  rwa [Int.cast_zero, zero_div] at h

lemma percent_one : percent 1 = 100 := by
  have h := percent_div 100
  rwa [Int.cast_ofNat, div_self (by norm_num)] at h

lemma percent_nonneg (h : 0 ≤ x) : 0 ≤ percent x := percent_zero ▸ percent_mono h

lemma percent_le (h : x ≤ 1) : percent x ≤ 100 := percent_one ▸ percent_mono h

end Percent

section Intervals

def intervalArgs (start stop : ℚ) : List Name :=
  if start = 0 ∧ stop = 1 then [] else [formatInt (percent start), formatInt (percent stop)]

lemma isArgChar_of_isWordChar {c : Char} (h : isWordChar c = true) (hne : c ≠ ')') : isArgChar c = true := by
  obtain ⟨-, -, -, -, -, hcomma, -⟩ := isWordChar_iff h
  simp [isArgChar, hcomma, hne]

lemma formatInt_argChars (n : ℤ) : ∀ c ∈ formatInt n, isGraph c = true ∧ isArgChar c = true := by
  intro c hc
  have hword := (formatInt_chars n).2 c hc
  refine ⟨(isWordChar_iff hword).1, isArgChar_of_isWordChar hword ?_⟩
  rintro rfl
  rw [formatInt] at hc
  split_ifs at hc
  · rcases List.mem_cons.mp hc with hc | hc
    · exact absurd hc (by decide)
    · exact absurd (isDigit_toDigits hc) (by decide)
  · exact absurd (isDigit_toDigits hc) (by decide)

lemma formatInterval_eq (start stop : ℚ) : formatInterval start stop = argsText (intervalArgs start stop) := by
  rw [formatInterval, intervalArgs]
  split_ifs
  · rfl
  · simp [argsText]

lemma intervalArgs_chars (start stop : ℚ) : ∀ arg ∈ intervalArgs start stop, ∀ c ∈ arg, isGraph c = true ∧ isArgChar c = true := by
  intro arg harg
  rw [intervalArgs] at harg
  split_ifs at harg
  · nomatch harg
  · rcases List.mem_cons.mp harg with rfl | harg
    · exact formatInt_argChars _
    · rw [List.mem_singleton.mp harg]
      exact formatInt_argChars _

lemma formatInt_nonneg {n : ℤ} (h : 0 ≤ n) : formatInt n = Nat.toDigits 10 n.toNat := by
  rw [formatInt, if_neg (not_lt.mpr h)]
  congr 1
  omega

lemma strtod_formatInt {n : ℤ} (h : 0 ≤ n) : strtod (formatInt n) = ((n : ℚ), []) := by
  rw [formatInt_nonneg h, strtod_toDigits]
  have : ((n.toNat : ℤ) : ℚ) = n := by rw [Int.toNat_of_nonneg h]
  rw [← this]
  rfl

lemma parseInterval_args {start stop : ℚ} (hstart : 0 ≤ start) (hlt : start < stop) (hstop : stop ≤ 1) :
    (parseInterval (intervalArgs start stop)).toOption =
      if percent start < percent stop then some ((percent start : ℚ) / 100, (percent stop : ℚ) / 100) else none := by
  rw [intervalArgs]
  split_ifs with hall hpercent hpercent
  · rw [hall.1, hall.2, percent_zero, percent_one]
    norm_num [parseInterval, Except.toOption]
  · rw [hall.1, hall.2, percent_zero, percent_one] at hpercent
    exact absurd (by decide) hpercent
  all_goals
    have h0 : 0 ≤ percent start := percent_nonneg hstart
    have h1 : percent stop ≤ 100 := percent_le hstop
    have hmono : percent start ≤ percent stop := percent_mono hlt.le
    have h0q : (0 : ℚ) ≤ percent start := by exact_mod_cast h0
    have h1q : (percent stop : ℚ) ≤ 100 := by exact_mod_cast h1
    have hmonoq : (percent start : ℚ) ≤ percent stop := by exact_mod_cast hmono
    rw [parseInterval]
    simp only [strtod_formatInt h0, strtod_formatInt (h0.trans hmono), (formatInt_chars _).1, ne_eq, not_true_eq_false,
      or_self, if_false]
  · have hltq : (percent start : ℚ) < percent stop := by exact_mod_cast hpercent
    rw [if_neg]
    · rfl
    · push Not
      exact ⟨h0q, hmonoq.trans h1q, h0q.trans hmonoq, h1q, hltq⟩
  · have hgeq : (percent start : ℚ) ≥ percent stop := by exact_mod_cast not_lt.mp hpercent
    rw [if_pos]
    · rfl
    · exact .inr (.inr (.inr (.inr hgeq)))

end Intervals

namespace CellEdge

def rounded (e : CellEdge) : CellEdge := { e with first := percent e.first / 100, second := percent e.second / 100 }

def Kept (e : CellEdge) : Prop := percent e.first < percent e.second

instance (e : CellEdge) : Decidable e.Kept := inferInstanceAs (Decidable (_ < _))

variable {d e : CellEdge}

lemma rounded_proper (h : e.Proper) (hkept : e.Kept) : e.rounded.Proper := by
  have h0 : (0 : ℚ) ≤ percent e.first := by exact_mod_cast percent_nonneg h.nonneg
  have h1 : (percent e.second : ℚ) ≤ 100 := by exact_mod_cast percent_le h.le_one
  have hlt : (percent e.first : ℚ) < percent e.second := by exact_mod_cast hkept
  refine ⟨h.side, ?_, ?_, ?_⟩
  · change 0 ≤ (percent e.first : ℚ) / 100
    linarith
  · change (percent e.first : ℚ) / 100 < percent e.second / 100
    linarith
  · change (percent e.second : ℚ) / 100 ≤ 1
    linarith

def Before (d e : CellEdge) : Prop := d.side.toNat < e.side.toNat ∨ d.side = e.side ∧ d.second ≤ e.first

lemma Before.key_lt (h : d.Before e) (hd : d.first < d.second) : d.key < e.key := by
  rw [CellEdge.key_lt]
  rcases h with h | ⟨hside, hle⟩
  · exact .inl h
  · exact .inr ⟨hside, hd.trans_le hle⟩

lemma Before.overlaps (h : d.Before e) (hd : d.first < d.second) (he : e.first < e.second) : d.overlaps e = false := by
  rw [CellEdge.overlaps, decide_eq_false_iff_not]
  rintro ⟨hside, hover⟩
  rcases h with h | ⟨-, hle⟩
  · exact absurd (congrArg Direction.toNat hside) h.ne
  · rcases hover with h | h | h | h <;> linarith

lemma Before.rounded (h : d.Before e) : d.rounded.Before e.rounded := by
  rcases h with h | ⟨hside, hle⟩
  · exact .inl h
  · refine .inr ⟨hside, ?_⟩
    have : (percent d.second : ℚ) ≤ percent e.first := by exact_mod_cast percent_mono hle
    change (percent d.second : ℚ) / 100 ≤ percent e.first / 100
    linarith

end CellEdge

namespace Cell

variable {c : Cell} {src : CellEdge}

lemma add_behind (dst : CellEdge) (h : ∀ e ∈ c.neighbors.entries, e.1.first < e.1.second ∧ e.1.Before src)
    (hsrc : src.first < src.second) :
    c.add src dst = some { c with neighbors := c.neighbors.insert src dst } := by
  have hlt : ∀ e ∈ c.neighbors.entries, e.1.key < src.key := fun e he => (h e he).2.key_lt (h e he).1
  have hnew : c.neighbors.contains src = false := OrdMap.contains_eq_false.mpr fun n w hmem => (hlt _ hmem).ne
  have hover : c.overlaps src = false := by
    rw [Cell.overlaps, Bool.or_eq_false_iff]
    constructor
    · rw [Option.any_eq_false]
      intro e he
      have hkey := List.find?_some he
      exact absurd (hlt e (OrdMap.mem_of_firstGt? he)) (of_decide_eq_true hkey).not_gt
    · rw [Option.any_eq_false]
      intro e he
      have hmem : e ∈ c.neighbors.entries := (List.mem_filter.mp (List.mem_of_getLast? he)).1
      rw [(h e hmem).2.overlaps (h e hmem).1 hsrc]
  rw [add, hover, Bool.and_false, if_neg Bool.false_ne_true, OrdMap.erase_of_not_contains hnew]

end Cell

section Lines

variable {resolves : Name → Bool} {s : Reading}

lemma formatInterval_chars (start stop : ℚ) : (∀ c ∈ formatInterval start stop, isGraph c = true ∧ c ≠ ':' ∧ c ≠ '#') ∧
    ∀ c ∈ (formatInterval start stop).head?, c = '(' := by
  have hword (n : ℤ) : ∀ c ∈ formatInt n, isGraph c = true ∧ c ≠ ':' ∧ c ≠ '#' := by
    intro c hc
    obtain ⟨hgraph, hcolon, hcomment, -⟩ := isWordChar_iff ((formatInt_chars n).2 c hc)
    exact ⟨hgraph, hcolon, hcomment⟩
  rw [formatInterval]
  split_ifs
  · simp
  · refine ⟨?_, ?_⟩
    · simp only [List.cons_append, List.append_assoc, List.forall_mem_cons, List.forall_mem_append,
        List.not_mem_nil, false_implies, implies_true, and_true]
      exact ⟨by decide, hword _, by decide, hword _, by decide⟩
    · rintro c ⟨⟩
      rfl

lemma word_interval_lineText {word : Name} (hne : word ≠ []) (hword : ∀ c ∈ word, isWordChar c = true) (start stop : ℚ) :
    LineText (word ++ formatInterval start stop) := by
  apply lineText_of_word (by simp [hne])
  intro c hc
  rcases List.mem_append.mp hc with hc | hc
  · obtain ⟨hgraph, hcolon, hcomment, -⟩ := isWordChar_iff (hword c hc)
    exact ⟨hgraph, hcolon, hcomment⟩
  · exact (formatInterval_chars start stop).1 c hc

lemma dirName_word {side : Direction} (h : side ≠ .noDirection) :
    dirName side ≠ [] ∧ (∀ c ∈ dirName side, isWordChar c = true) ∧ Config.parseDirection (dirName side) = some side := by
  cases side with
  | noDirection => exact absurd rfl h
  | left | right | top | bottom => exact ⟨by decide, by decide, by decide⟩

lemma parseInterval_edge {e : CellEdge} (h : e.Proper) : (parseInterval (intervalArgs e.first e.second)).toOption =
    if e.Kept then some (e.rounded.first, e.rounded.second) else none := parseInterval_args h.nonneg h.lt h.le_one

lemma intervalArgs_last (start stop : ℚ) : (intervalArgs start stop).getLast? ≠ some [] := by
  rw [intervalArgs]
  split_ifs
  · exact Option.some_ne_none _ ∘ Eq.symm
  · exact fun hnil => (formatInt_chars (percent stop)).1 (Option.some.inj hnil)

def edgeText (word : Name) (e : CellEdge) : Name := word ++ formatInterval e.first e.second

lemma parse_linkSide {word : Name} (hne : word ≠ []) (hword : ∀ c ∈ word, isWordChar c = true) (e : CellEdge) (text : Name) :
    parseNameWithArgs "link" ['='] (edgeText word e ++ " = ".toList ++ text) =
      .ok (word, intervalArgs e.first e.second, '=' :: ' ' :: text) := by
  rw [edgeText, formatInterval_eq]
  exact parse_callName (intervalArgs_chars e.first e.second) (intervalArgs_last e.first e.second) hne hword

lemma parse_linkScreen {word : Name} (hne : word ≠ []) (hword : ∀ c ∈ word, isWordChar c = true) (e : CellEdge) :
    parseNameWithArgs "screen" [] (' ' :: edgeText word e) = .ok (word, intervalArgs e.first e.second, []) := by
  have hparse : parseNameWithArgs "screen" [] ([' '] ++ (word ++ argsText (intervalArgs e.first e.second) ++ [])) =
      .ok (word, intervalArgs e.first e.second, List.dropWhile isBlank []) :=
    parse_call (intervalArgs_chars e.first e.second) (intervalArgs_last e.first e.second) (by simp) hne hword (by decide)
      (by simp) (by simp) (by decide)
  rw [List.append_nil, ← formatInterval_eq] at hparse
  exact hparse

lemma next_link {link : CellEdge × CellEdge} (hsrc : link.1.Proper) (hdst : link.2.Proper) (hne : link.2.name ≠ [])
    (hname : ∀ c ∈ link.2.name, isNameChar c = true) (hinside : s.inside = some .links) (hscreen : s.screen ≠ []) :
    s.next resolves (writeLink link) =
      if link.1.Kept ∧ link.2.Kept ∧ s.config.isScreen link.2.name = true then
        (s.config.connect s.screen link.1.side link.1.rounded.first link.1.rounded.second link.2.name
          link.2.rounded.first link.2.rounded.second).map s.setConfig
      else none := by
  have hword : ∀ c ∈ link.2.name, isWordChar c = true := fun c hc => isWordChar_of_isNameChar (hname c hc)
  obtain ⟨hdir, hdirword, hparse⟩ := dirName_word hsrc.side
  have htext : LineText (edgeText (dirName link.1.side) link.1 ++ " = ".toList ++ edgeText link.2.name link.2) :=
    (word_interval_lineText hdir hdirword _ _).append (word_interval_lineText hne hword _ _) (by decide)
  have hline : writeLink link =
      "\t\t".toList ++ (edgeText (dirName link.1.side) link.1 ++ " = ".toList ++ edgeText link.2.name link.2) := by
    delta writeLink
    simp only [edgeText, List.append_assoc]
  rw [hline, next_content hinside (by decide) htext.clean (optionLine_ne_end _ _), Reading.readContent,
    Reading.readLinkLine, if_neg htext.last_ne, if_neg hscreen, parse_linkSide hdir hdirword]
  change (parseNameWithArgs "screen" [] (' ' :: _) >>= _).toOption = _
  rw [parse_linkScreen hne hword]
  change (parseInterval (intervalArgs link.1.first link.1.second) >>= _).toOption = _
  rw [toOption_bind, parseInterval_edge hsrc]
  by_cases hkept : link.1.Kept
  · rw [if_pos hkept, Option.bind_some, toOption_bind, parseInterval_edge hdst]
    by_cases hkept' : link.2.Kept
    · rw [if_pos hkept', Option.bind_some]
      dsimp only
      rw [hparse]
      cases hknown : s.config.isScreen link.2.name with
      | false =>
        rw [if_neg fun h => Bool.false_ne_true h.2.2]
        rfl
      | true =>
        rw [if_pos ⟨hkept, hkept', rfl⟩]
        simp only [Bool.true_eq_false, if_false]
        cases s.config.connect s.screen link.1.side link.1.rounded.first link.1.rounded.second link.2.name
          link.2.rounded.first link.2.rounded.second with
        | none => rfl
        | some c => rfl
    · rw [if_neg hkept', if_neg fun h => hkept' h.2.1]
      rfl
  · rw [if_neg hkept, if_neg fun h => hkept h.1]
    rfl

lemma next_linkHeader {name : Name} (hinside : s.inside = some .links) (hvalid : Reading.isValidScreenName name = true)
    (hscreen : s.config.isScreen name = true) (hcanonical : s.config.isCanonicalName name = true) :
    s.next resolves (header name) = some { s with screen := name } := by
  obtain ⟨hne, hchars⟩ := isNameChar_of_valid hvalid
  rw [next_header hinside hne hchars, Reading.readContent, Reading.readLinkLine, if_pos (by simp), Reading.readHeader,
    List.dropLast_concat, if_neg (by simp [hscreen]), if_neg (by simp [hcanonical])]
  rfl

end Lines

def roundLink (link : CellEdge × CellEdge) : CellEdge × CellEdge := (link.1.rounded, link.2.rounded)

def Config.ReadableLink (c : Config) (link : CellEdge × CellEdge) : Prop :=
  link.1.Kept ∧ link.2.Kept ∧ c.isScreen link.2.name = true

instance (c : Config) (link : CellEdge × CellEdge) : Decidable (c.ReadableLink link) :=
  inferInstanceAs (Decidable (_ ∧ _ ∧ _))

def Cell.addLinks (c : Cell) (links : List (CellEdge × CellEdge)) : Cell :=
  { c with neighbors := links.foldl (fun m e => m.insert e.1 e.2) c.neighbors }

def Reading.setCell (s : Reading) (name : Name) (cell : Cell) : Reading :=
  s.setConfig { s.config with map := s.config.map.modify name fun _ => cell }

lemma map_setCell (s : Reading) (name : Name) (cell : Cell) :
    (s.setCell name cell).config.map = s.config.map.modify name fun _ => cell := rfl

section ScreenLinks

variable {resolves : Name → Bool} {s : Reading} {name : Name} (hcanonical : s.config.getCanonicalName name = name)
  (hmap : s.config.map.contains name = true)

include hcanonical hmap

lemma connect_setCell {cell cell' : Cell} {src dst : CellEdge} (hsrc : src.name = [] ∧ src.Proper)
    (hdst : dst.Proper ∧ dst.side = src.side) (hadd : cell.add src dst = some cell') :
    (s.setCell name cell).config.connect name src.side src.first src.second dst.name dst.first dst.second =
      some (s.setCell name cell').config := by
  have hfind : (s.setCell name cell).config.map.find? ((s.setCell name cell).config.getCanonicalName name) = some cell := by
    have hname : (s.setCell name cell).config.getCanonicalName name = name := hcanonical
    rw [hname, map_setCell, OrdMap.find?_modify hmap]
  have hsame : (⟨[], src.side, src.first, src.second⟩ : CellEdge) = src := by rw [← hsrc.1]
  have hsame' : (⟨dst.name, src.side, dst.first, dst.second⟩ : CellEdge) = dst := by rw [← hdst.2]
  have hguard : src.side ≠ .noDirection ∧ 0 ≤ src.first ∧ src.first < src.second ∧ src.second ≤ 1 ∧
      0 ≤ dst.first ∧ dst.first < dst.second ∧ dst.second ≤ 1 :=
    ⟨hsrc.2.side, hsrc.2.nonneg, hsrc.2.lt, hsrc.2.le_one, hdst.1.nonneg, hdst.1.lt, hdst.1.le_one⟩
  rw [Config.connect, if_pos hguard, hfind]
  dsimp only
  rw [hsame, hsame', hadd]
  have hname : (s.setCell name cell).config.getCanonicalName name = name := hcanonical
  have hmodify : (s.setCell name cell).config.map.modify name (fun _ => cell') = (s.setCell name cell').config.map := by
    rw [map_setCell, map_setCell, OrdMap.modify_modify]
    rfl
  rw [hname, Option.map_some, hmodify]
  rfl

lemma runFrom_screenLinks (hinside : s.inside = some .links) (hscreen : s.screen = name) (hne : name ≠ [])
    {links : List (CellEdge × CellEdge)}
    (hproper : ∀ l ∈ links, l.1.name = [] ∧ l.1.Proper ∧ l.2.Proper ∧ l.2.side = l.1.side)
    (hnames : ∀ l ∈ links, l.2.name ≠ [] ∧ ∀ c ∈ l.2.name, isNameChar c = true)
    (hbefore : links.Pairwise fun a b => a.1.Before b.1) {cell : Cell}
    (hcell : ∀ e ∈ cell.neighbors.entries, e.1.first < e.1.second ∧ ∀ l ∈ links, e.1.Before l.1.rounded) :
    runFrom (Reading.next resolves) (links.map writeLink) (s.setCell name cell) =
      if ∀ l ∈ links, s.config.ReadableLink l then some (s.setCell name (cell.addLinks (links.map roundLink)))
      else none := by
  induction links generalizing cell with
  | nil => rfl
  | cons l links ih =>
    obtain ⟨hsrc, hsrcProper, hdstProper, hside⟩ := hproper l List.mem_cons_self
    obtain ⟨hdne, hdname⟩ := hnames l List.mem_cons_self
    have hscreen' : (s.setCell name cell).screen = name := hscreen
    have hnext : (s.setCell name cell).next resolves (writeLink l) = _ :=
      next_link hsrcProper hdstProper hdne hdname hinside (hscreen' ▸ hne)
    rw [List.map_cons, runFrom, hnext]
    by_cases hread : s.config.ReadableLink l
    · have hsrc' : l.1.rounded.name = [] ∧ l.1.rounded.Proper := ⟨hsrc, CellEdge.rounded_proper hsrcProper hread.1⟩
      have hdst' : l.2.rounded.Proper ∧ l.2.rounded.side = l.1.rounded.side :=
        ⟨CellEdge.rounded_proper hdstProper hread.2.1, hside⟩
      have hadd : cell.add l.1.rounded l.2.rounded = some _ := Cell.add_behind l.2.rounded
        (fun e he => ⟨(hcell e he).1, (hcell e he).2 l List.mem_cons_self⟩) hsrc'.2.lt
      have hconnect := connect_setCell hcanonical hmap hsrc' hdst' hadd
      have hcond : (∀ l' ∈ l :: links, s.config.ReadableLink l') ↔ ∀ l' ∈ links, s.config.ReadableLink l' := by
        rw [List.forall_mem_cons, and_iff_right hread]
      obtain ⟨hfirst, hrest⟩ := List.pairwise_cons.mp hbefore
      have hcell' : ∀ e ∈ (cell.neighbors.insert l.1.rounded l.2.rounded).entries,
          e.1.first < e.1.second ∧ ∀ k ∈ links, e.1.Before k.1.rounded := by
        intro e he
        rcases OrdMap.mem_insertEntry he with rfl | he
        · exact ⟨hsrc'.2.lt, fun k hk => (hfirst k hk).rounded⟩
        · exact ⟨(hcell e he).1, fun k hk => (hcell e he).2 k (List.mem_cons_of_mem l hk)⟩
      have hreadable : l.1.Kept ∧ l.2.Kept ∧ (s.setCell name cell).config.isScreen l.2.name = true := hread
      rw [if_congr hcond rfl rfl, if_pos hreadable, hscreen']
      change (Option.map _ (Config.connect _ name l.1.rounded.side _ _ l.2.rounded.name _ _)).bind _ = _
      rw [hconnect]
      exact ih (fun k hk => hproper k (List.mem_cons_of_mem l hk)) (fun k hk => hnames k (List.mem_cons_of_mem l hk)) hrest
        hcell'
    · have hnot : ¬ (l.1.Kept ∧ l.2.Kept ∧ (s.setCell name cell).config.isScreen l.2.name = true) := hread
      have hsome : ¬ ∀ k ∈ l :: links, s.config.ReadableLink k := fun h => hread (h l List.mem_cons_self)
      rw [if_neg hnot, if_neg hsome]
      rfl

end ScreenLinks

def Cell.rounded (c : Cell) : Cell := Cell.addLinks ⟨.empty, c.options⟩ (c.neighbors.entries.map roundLink)

def linkLines (e : Name × Cell) : List Name := header e.1 :: e.2.neighbors.entries.map writeLink

structure Config.Unlinked (c : Config) (e : Name × Cell) : Prop where
  valid : Reading.isValidScreenName e.1 = true
  screen : c.isScreen e.1 = true
  canonical : c.getCanonicalName e.1 = e.1
  cell : c.map.find? e.1 = some ⟨.empty, e.2.options⟩

section Screens

variable {resolves : Name → Bool} {s : Reading}

lemma Cell.LinksInv.pairwise {c : Cell} (h : c.LinksInv) : c.neighbors.entries.Pairwise fun a b => a.1.Before b.1 := by
  apply List.Pairwise.imp_of_mem ?_ c.neighbors.sorted
  intro a b ha hb hlt
  rcases CellEdge.key_lt.mp hlt with hside | ⟨hside, hfirst⟩
  · exact .inl hside
  · exact .inr ⟨hside, h.disjoint a ha b hb hside hfirst⟩

lemma runFrom_linkLines {e : Name × Cell} (hinside : s.inside = some .links) (he : s.config.Unlinked e)
    (hlinks : e.2.LinksInv) (hnames : ∀ l ∈ e.2.neighbors.entries, l.2.name ≠ [] ∧ ∀ c ∈ l.2.name, isNameChar c = true) :
    runFrom (Reading.next resolves) (linkLines e) s =
      if ∀ l ∈ e.2.neighbors.entries, s.config.ReadableLink l then
        some { s.setCell e.1 e.2.rounded with screen := e.1 }
      else none := by
  have hne := (isNameChar_of_valid he.valid).1
  have hcontains : s.config.map.contains e.1 = true := by rw [OrdMap.contains, he.cell]; rfl
  have hcanonical : s.config.isCanonicalName e.1 = true := decide_eq_true ⟨hne, by rw [he.canonical]⟩
  have hsame : { s with screen := e.1 }.setCell e.1 ⟨.empty, e.2.options⟩ = { s with screen := e.1 } := by
    have hmap : (s.config.map.modify e.1 fun _ => ⟨.empty, e.2.options⟩) = s.config.map := OrdMap.modify_self he.cell
    rw [Reading.setCell, Reading.setConfig]
    dsimp only
    rw [hmap]
  have hcell : ∀ d ∈ (OrdMap.empty : OrdMap CellEdge.key CellEdge).entries,
      d.1.first < d.1.second ∧ ∀ l ∈ e.2.neighbors.entries, d.1.Before l.1.rounded := by
    intro d hd
    cases hd
  have hrun : runFrom (Reading.next resolves) (e.2.neighbors.entries.map writeLink)
      ({ s with screen := e.1 }.setCell e.1 ⟨.empty, e.2.options⟩) = _ :=
    runFrom_screenLinks (s := { s with screen := e.1 }) he.canonical hcontains hinside rfl hne hlinks.proper hnames
      hlinks.pairwise hcell
  rw [hsame] at hrun
  rw [linkLines, runFrom, next_linkHeader hinside he.valid he.screen hcanonical, Option.bind_some, hrun]
  rfl

def setCells (s : Reading) (es : List (Name × Cell)) : Reading :=
  es.foldl (fun s e => { s.setCell e.1 e.2.rounded with screen := e.1 }) s

lemma Config.Unlinked.setCell {c : Config} {d e : Name × Cell} (h : c.Unlinked d) (hne : caseless d.1 ≠ caseless e.1) :
    { c with map := c.map.modify e.1 fun _ => e.2.rounded }.Unlinked d :=
  ⟨h.valid, h.screen, h.canonical, (OrdMap.find?_modify_of_ne hne _).trans h.cell⟩

lemma runFrom_links {es : List (Name × Cell)} (hinside : s.inside = some .links) (hes : ∀ e ∈ es, s.config.Unlinked e)
    (hlinks : ∀ e ∈ es, e.2.LinksInv)
    (hnames : ∀ e ∈ es, ∀ l ∈ e.2.neighbors.entries, l.2.name ≠ [] ∧ ∀ c ∈ l.2.name, isNameChar c = true)
    (hdistinct : es.Pairwise fun a b => caseless a.1 ≠ caseless b.1) :
    runFrom (Reading.next resolves) (es.flatMap linkLines) s =
      if ∀ e ∈ es, ∀ l ∈ e.2.neighbors.entries, s.config.ReadableLink l then some (setCells s es) else none := by
  induction es generalizing s with
  | nil => rfl
  | cons e es ih =>
    obtain ⟨hfirst, hrest⟩ := List.pairwise_cons.mp hdistinct
    rw [List.flatMap_cons, runFrom_append, runFrom_linkLines hinside (hes e List.mem_cons_self)
      (hlinks e List.mem_cons_self) (hnames e List.mem_cons_self)]
    by_cases hread : ∀ l ∈ e.2.neighbors.entries, s.config.ReadableLink l
    · have hcond : (∀ d ∈ e :: es, ∀ l ∈ d.2.neighbors.entries, s.config.ReadableLink l) ↔
          ∀ d ∈ es, ∀ l ∈ d.2.neighbors.entries, s.config.ReadableLink l := by
        rw [List.forall_mem_cons, and_iff_right hread]
      have hes' : ∀ d ∈ es, { s.setCell e.1 e.2.rounded with screen := e.1 }.config.Unlinked d :=
        fun d hd => (hes d (List.mem_cons_of_mem e hd)).setCell (hfirst d hd).symm
      rw [if_pos hread, Option.bind_some, if_congr hcond rfl rfl]
      exact ih (s := { s.setCell e.1 e.2.rounded with screen := e.1 }) hinside hes'
        (fun d hd => hlinks d (List.mem_cons_of_mem e hd)) (fun d hd => hnames d (List.mem_cons_of_mem e hd)) hrest
    · have hsome : ¬ ∀ d ∈ e :: es, ∀ l ∈ d.2.neighbors.entries, s.config.ReadableLink l :=
        fun h => hread (h e List.mem_cons_self)
      rw [if_neg hread, if_neg hsome]
      rfl

end Screens

namespace Config

def linked (c : Config) : Config := { c.bare with map := c.map.mapValues Cell.rounded }

def ReadableLinks (c : Config) : Prop :=
  ∀ e ∈ c.map.entries, ∀ l ∈ e.2.neighbors.entries, l.1.Kept ∧ l.2.Kept ∧ c.map.contains l.2.name = true

instance (c : Config) : Decidable c.ReadableLinks :=
  inferInstanceAs (Decidable (∀ e ∈ c.map.entries, ∀ l ∈ e.2.neighbors.entries, _))

lemma bare_isScreen (c : Config) (name : Name) : c.bare.isScreen name = c.map.contains name := by
  rw [Bool.eq_iff_iff, isScreen, OrdMap.contains_iff, OrdMap.contains_iff]
  constructor
  · rintro ⟨e, he, hname⟩
    obtain ⟨d, hd, rfl⟩ := List.mem_map.mp he
    exact ⟨d, hd, hname⟩
  · rintro ⟨d, hd, hname⟩
    exact ⟨(d.1, d.1), List.mem_map.mpr ⟨d, hd, rfl⟩, hname⟩

variable {c : Config}

lemma StoredInv.writeLinks_eq (hinv : c.StoredInv) : c.writeLinks = c.map.entries.flatMap linkLines := by
  rw [writeLinks]
  apply List.flatMap_congr
  intro e he
  obtain ⟨hfind, hcanonical, -⟩ := hinv.key he
  rw [hcanonical, hfind]
  rfl

lemma StoredInv.unlinked (hinv : c.StoredInv) {e : Name × Cell} (he : e ∈ c.map.entries) : c.bare.Unlinked e := by
  have hmem : (e.1, e.1) ∈ c.bare.nameToCanonicalName.entries := List.mem_map.mpr ⟨e, he, rfl⟩
  refine ⟨(hinv.key he).2.2, (getCanonicalName_of_mem hmem).1, (getCanonicalName_of_mem hmem).2, ?_⟩
  exact OrdMap.find?_eq_some.mpr ⟨e.1, rfl, OrdMap.mem_mapValues.mpr ⟨e, he, rfl⟩⟩

lemma StoredInv.destination (hinv : c.StoredInv) {e : Name × Cell} (he : e ∈ c.map.entries)
    {l : CellEdge × CellEdge} (hl : l ∈ e.2.neighbors.entries) :
    l.2.name ≠ [] ∧ ∀ ch ∈ l.2.name, isNameChar ch = true := by
  obtain ⟨d, hd, hname⟩ := OrdMap.contains_iff.mp (hinv.destinations e he l hl)
  obtain ⟨hne, hchars⟩ := isNameChar_of_valid (hinv.validNames d hd)
  refine ⟨?_, nameChars_caseless hname.symm hchars⟩
  intro hnil
  rw [hnil] at hname
  exact hne (List.map_eq_nil_iff.mp hname)

/-- The section of links is read again if every link can be. -/
theorem StoredInv.runFrom_links (hinv : c.StoredInv) (resolves : Name → Bool) (screen : Name) :
    ∃ screen', runFrom (Reading.next resolves) (sectionLines .links c.writeLinks) ⟨⟨⟨c.bare, []⟩, none⟩, none, screen⟩ =
      if c.ReadableLinks then some ⟨⟨⟨c.linked, []⟩, none⟩, none, screen'⟩ else none := by
  have hcells (es : List (Name × Cell)) (s : Reading) : ∃ screen, setCells s es =
      { s.setConfig { s.config with map := es.foldl (fun r e => r.modify e.1 fun _ => e.2.rounded) s.config.map } with
        screen := screen } := by
    induction es generalizing s with
    | nil => exact ⟨s.screen, rfl⟩
    | cons e es ih => exact ih { s.setCell e.1 e.2.rounded with screen := e.1 }
  obtain ⟨screen', hscreen⟩ := hcells c.map.entries ⟨⟨⟨c.bare, []⟩, none⟩, some .links, []⟩
  have hmap : c.map.entries.foldl (fun r e => r.modify e.1 fun _ => e.2.rounded) c.bare.map = c.map.mapValues Cell.rounded :=
    c.map.foldl_modify (fun cell => ⟨.empty, cell.options⟩) Cell.rounded
  have hrun : runFrom (Reading.next resolves) c.writeLinks ⟨⟨⟨c.bare, []⟩, none⟩, some .links, []⟩ =
      if c.ReadableLinks then some ⟨⟨⟨c.linked, []⟩, none⟩, some .links, screen'⟩ else none := by
    rw [hinv.writeLinks_eq, InputLeap.runFrom_links rfl (fun e he => hinv.unlinked he) hinv.links
      (fun e he l hl => hinv.destination he hl) (c.map.sorted.imp fun h => h.ne), hscreen]
    have hcond : (∀ e ∈ c.map.entries, ∀ l ∈ e.2.neighbors.entries, c.bare.ReadableLink l) ↔ c.ReadableLinks := by
      simp only [ReadableLink, bare_isScreen, ReadableLinks]
    apply if_congr hcond _ rfl
    exact congrArg (fun m => some (Reading.mk ⟨⟨{ c.bare with map := m }, []⟩, none⟩ (some .links) screen')) hmap
  refine ⟨screen', ?_⟩
  rw [runFrom_section rfl]
  · rw [hrun]
    split_ifs
    · rfl
    · rfl
  · intro t ht
    rw [hrun] at ht
    split_ifs at ht
    rw [← Option.some.inj ht]

/-- The sections of screens and links, as they are written, are read again, and each screen has the links that it had. -/
def LinksReread (resolves : Name → Bool) (c : Config) : Prop :=
  ∃ s, runFrom (Reading.next resolves)
      (sectionLines .screens c.writeScreens ++ sectionLines .links c.writeLinks) .start = some s ∧ s.inside = none ∧
    ∀ name, (s.config.map.find? name).map Cell.neighbors = (c.map.find? name).map Cell.neighbors

end Config

section Whole

def CellEdge.Whole (e : CellEdge) : Prop := (e.first * 100).den = 1 ∧ (e.second * 100).den = 1

instance (e : CellEdge) : Decidable e.Whole := inferInstanceAs (Decidable (_ ∧ _))

lemma percent_eq_iff (x : ℚ) : (percent x : ℚ) / 100 = x ↔ (x * 100).den = 1 := by
  constructor
  · intro h
    have hx : x * 100 = percent x := by
      rw [← h, percent_div, div_mul_cancel₀ _ (by norm_num)]
    rw [hx]
    rfl
  · intro h
    have hx : x = ((x * 100).num : ℚ) / 100 := by
      rw [eq_div_iff (by norm_num)]
      exact (Rat.den_eq_one_iff _).mp h |>.symm
    rw [hx, percent_div]

lemma CellEdge.rounded_eq_iff (e : CellEdge) : e.rounded = e ↔ e.Whole := by
  rw [CellEdge.Whole, ← percent_eq_iff, ← percent_eq_iff]
  obtain ⟨name, side, first, second⟩ := e
  simp only [rounded, CellEdge.mk.injEq, true_and]

lemma CellEdge.Whole.kept {e : CellEdge} (h : e.Whole) (hproper : e.Proper) : e.Kept := by
  have hlt := hproper.lt
  rw [← (percent_eq_iff _).mpr h.1, ← (percent_eq_iff _).mpr h.2] at hlt
  have : (percent e.first : ℚ) < percent e.second := by linarith
  exact_mod_cast this

variable {c : Cell}

lemma Cell.LinksInv.rounded_entries (h : c.LinksInv) (hkept : ∀ l ∈ c.neighbors.entries, l.1.Kept) :
    c.rounded.neighbors.entries = c.neighbors.entries.map roundLink := by
  have hsorted : (c.neighbors.entries.map roundLink).Pairwise fun a b => a.1.key < b.1.key := by
    rw [List.pairwise_map]
    apply List.Pairwise.imp_of_mem ?_ h.pairwise
    intro a b ha _ hbefore
    exact hbefore.rounded.key_lt (CellEdge.rounded_proper (h.proper a ha).2.1 (hkept a ha)).lt
  exact OrdMap.foldl_insert .empty hsorted

lemma Cell.LinksInv.rounded_eq_iff (h : c.LinksInv) (hkept : ∀ l ∈ c.neighbors.entries, l.1.Kept) :
    c.rounded.neighbors = c.neighbors ↔ ∀ l ∈ c.neighbors.entries, l.1.Whole ∧ l.2.Whole := by
  rw [OrdMap.ext_iff, h.rounded_entries hkept]
  have hid : c.neighbors.entries.map roundLink = c.neighbors.entries ↔
      ∀ l ∈ c.neighbors.entries, roundLink l = id l := by
    rw [← List.map_inj_left, List.map_id]
  rw [hid]
  apply forall₂_congr
  intro l _
  exact Prod.ext_iff.trans (and_congr (CellEdge.rounded_eq_iff l.1) (CellEdge.rounded_eq_iff l.2))

end Whole

namespace Config

def WholeLinks (c : Config) : Prop :=
  ∀ e ∈ c.map.entries, ∀ l ∈ e.2.neighbors.entries, l.1.Whole ∧ l.2.Whole ∧ c.map.contains l.2.name = true

instance (c : Config) : Decidable c.WholeLinks :=
  inferInstanceAs (Decidable (∀ e ∈ c.map.entries, ∀ l ∈ e.2.neighbors.entries, _))

variable {c : Config}

lemma StoredInv.readable_of_whole (hinv : c.StoredInv) (h : c.WholeLinks) : c.ReadableLinks := by
  intro e he l hl
  obtain ⟨hsrc, hdst, hname⟩ := h e he l hl
  obtain ⟨-, hsrcProper, hdstProper, -⟩ := (hinv.links e he).proper l hl
  exact ⟨hsrc.kept hsrcProper, hdst.kept hdstProper, hname⟩

lemma find?_linked (name : Name) : c.linked.map.find? name = (c.map.find? name).map Cell.rounded := by
  apply Option.ext
  intro cell
  rw [OrdMap.find?_eq_some, Option.map_eq_some_iff]
  constructor
  · rintro ⟨n, hn, hmem⟩
    obtain ⟨d, hd, heq⟩ := OrdMap.mem_mapValues.mp hmem
    obtain ⟨rfl, rfl⟩ := Prod.mk.inj heq
    exact ⟨d.2, OrdMap.find?_eq_some.mpr ⟨d.1, hn, hd⟩, rfl⟩
  · rintro ⟨cell', hfind, rfl⟩
    obtain ⟨n, hn, hmem⟩ := OrdMap.find?_eq_some.mp hfind
    exact ⟨n, hn, OrdMap.mem_mapValues.mpr ⟨(n, cell'), hmem, rfl⟩⟩

lemma StoredInv.linksReread_iff (hinv : c.StoredInv) (resolves : Name → Bool) :
    c.LinksReread resolves ↔ c.WholeLinks := by
  obtain ⟨screen, hscreens⟩ := hinv.runFrom_screens resolves
  obtain ⟨screen', hlinks⟩ := hinv.runFrom_links resolves screen
  rw [LinksReread]
  simp only [runFrom_append, hscreens, Option.bind_some, hlinks]
  constructor
  · rintro ⟨s, hs, -, hsame⟩ e he l hl
    split_ifs at hs with hread
    obtain rfl := Option.some.inj hs
    have hkept := fun l hl => (hread e he l hl).1
    have hcell : e.2.rounded.neighbors = e.2.neighbors := by
      have := hsame e.1
      rw [find?_linked, (hinv.key he).1] at this
      exact Option.some.inj this
    obtain ⟨hsrc, hdst⟩ := ((hinv.links e he).rounded_eq_iff hkept).mp hcell l hl
    exact ⟨hsrc, hdst, (hread e he l hl).2.2⟩
  · intro hwhole
    have hread := hinv.readable_of_whole hwhole
    refine ⟨_, if_pos hread, rfl, ?_⟩
    intro name
    change (c.linked.map.find? name).map Cell.neighbors = _
    rw [find?_linked, Option.map_map]
    cases hfind : c.map.find? name with
    | none => rfl
    | some cell =>
      obtain ⟨n, -, hmem⟩ := OrdMap.find?_eq_some.mp hfind
      apply congrArg some
      exact ((hinv.links _ hmem).rounded_eq_iff fun l hl => (hread _ hmem l hl).1).mpr
        fun l hl => ⟨(hwhole _ hmem l hl).1, (hwhole _ hmem l hl).2.1⟩

end Config

/-- The links of a file come back if all intervals are in whole percent and no link leads to an alias. -/
theorem readConfig_linksReread_iff {resolves : Name → Bool} {text : Name} {file : StoredConfig}
    (h : readConfig resolves text = .ok file) : file.config.LinksReread resolves ↔ file.config.WholeLinks :=
  (readConfig_storedInv h).linksReread_iff resolves

def linkFile (link : String) : Name :=
  ("section: screens\na:\nb:\nend\nsection: links\na:\n" ++ link ++ "\nend\n").toList

/-- The texts as lists, which are faster to evaluate. -/
lemma linkFile_eq (link : String) : linkFile link =
    "section: screens\na:\nb:\nend\nsection: links\na:\n".toList ++ link.toList ++ "\nend\n".toList := by
  rw [linkFile, String.toList_append, String.toList_append]

theorem readConfig_linksReread_half : ∃ file, readConfig (fun _ => true) (linkFile "right(0,50) = b(25,75)") = .ok file ∧
    file.config.LinksReread fun _ => true := by
  obtain ⟨file, hfile, hwhole⟩ : ∃ file, readConfig (fun _ => true) (linkFile "right(0,50) = b(25,75)") = .ok file ∧
      file.config.WholeLinks := by
    rw [linkFile_eq, String.toList_ofList, String.toList_ofList, String.toList_ofList]
    exact exists_ok_of_any (by decide +kernel)
  exact ⟨file, hfile, (readConfig_linksReread_iff hfile).mpr hwhole⟩

/-- The link ends at 33.4 percent, and is written up to 33. -/
theorem link_rounded : ¬ ∀ text file, readConfig (fun _ => true) text = .ok file →
    file.config.LinksReread fun _ => true := by
  intro hall
  obtain ⟨file, hfile, hwhole⟩ : ∃ file, readConfig (fun _ => true) (linkFile "right(0,33.4) = b") = .ok file ∧
      ¬ file.config.WholeLinks := by
    rw [linkFile_eq, String.toList_ofList, String.toList_ofList, String.toList_ofList]
    exact exists_ok_of_any (by decide +kernel)
  exact hwhole (((readConfig_storedInv hfile).linksReread_iff _).mp (hall _ file hfile))

end InputLeap
