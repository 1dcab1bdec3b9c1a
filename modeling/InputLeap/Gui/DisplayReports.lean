import InputLeap.Gui.CoreLines
import InputLeap.Gui.Overlap

/-! The displays that a computer reports, and the two forms in which they are sent. -/

namespace InputLeap.Gui

open InputLeap.Lib
open InputLeap.Gui.CoreEventParser (trimmed)

section Json

abbrev VariantMap := List (String × ℤ)

def displayMap (d : DisplayConfig) : VariantMap :=
  [("x", d.x), ("y", d.y), ("width", d.width), ("height", d.height), ("mmWidth", d.mmWidth), ("mmHeight", d.mmHeight)]

/-- A value that is not there is zero. -/
def VariantMap.toInt (o : VariantMap) (key : String) : ℤ := (o.lookup key).getD 0

def displayOfMap (o : VariantMap) : DisplayConfig :=
  ⟨o.toInt "x", o.toInt "y", o.toInt "width", o.toInt "height", o.toInt "mmWidth", o.toInt "mmHeight"⟩

def displaysToJson (displays : List DisplayConfig) : List VariantMap := displays.map displayMap

/-- What is behind the first few is not read. -/
def displaysFromArray (json : List VariantMap) : List DisplayConfig := displaysFromJson (json.map displayOfMap)

end Json

section Text

def reportedText (withSizes : Bool) (d : DisplayConfig) : Chars :=
  Text.formatInt d.x ++ ',' :: (Text.formatInt d.y ++ ',' :: (Text.formatInt d.width ++ 'x' :: (Text.formatInt d.height ++
    if withSizes = true ∧ 0 < d.mmWidth ∧ 0 < d.mmHeight then
      '@' :: (Text.formatInt d.mmWidth ++ 'x' :: Text.formatInt d.mmHeight)
    else [])))

def displaysToText (displays : List DisplayConfig) (withSizes : Bool) : Chars :=
  [';'].intercalate (displays.map (reportedText withSizes))

def takeChar (c : Char) : Chars → Option Chars
  | [] => none
  | d :: s => if d = c then some s else none

/-- `\d{1,most}` in front of something else than a digit. -/
def takeNumber (most : ℕ) (s : Chars) : Option (ℤ × Chars) :=
  let digits := s.takeWhile Text.isDigit
  if 1 ≤ digits.length ∧ digits.length ≤ most then some (Text.digitsValue 10 digits, s.dropWhile Text.isDigit) else none

def takeSigned (most : ℕ) (s : Chars) : Option (ℤ × Chars) :=
  if s.head? = some '-' then (takeNumber most s.tail).map fun n => (-n.1, n.2) else takeNumber most s

def takeSize (most : ℕ) (s : Chars) : Option ((ℤ × ℤ) × Chars) :=
  (takeNumber most s).bind fun width =>
    (takeChar 'x' width.2).bind fun s => (takeNumber most s).map fun height => ((width.1, height.1), height.2)

def matchDisplay (s : Chars) : Option DisplayConfig :=
  (takeSigned 6 s).bind fun x =>
    (takeChar ',' x.2).bind fun s =>
      (takeSigned 6 s).bind fun y =>
        (takeChar ',' y.2).bind fun s =>
          (takeSize 6 s).bind fun size =>
            if size.2 = [] then some ⟨x.1, y.1, size.1.1, size.1.2, 0, 0⟩
            else
              (takeChar '@' size.2).bind fun s =>
                (takeSize 5 s).bind fun mm =>
                  if mm.2 = [] then some ⟨x.1, y.1, size.1.1, size.1.2, mm.1.1, mm.1.2⟩ else none

/-- `split` with `Qt::SkipEmptyParts`. -/
def splitParts (text : Chars) : List Chars :=
  (Lines.lines ';' text ++ [Lines.unfinished ';' text]).filter fun part => decide (part ≠ [])

def displaysFromText (text : Chars) : List DisplayConfig :=
  displaysFromJson ((splitParts text).filterMap fun part => matchDisplay (trimmed part))

end Text

section Numbers

variable {most n : ℕ} {c : Char} {s rest : Chars}

lemma takeNumber_formatInt (hn : n < 10 ^ most) (hmost : 0 < most) (hrest : ∀ c ∈ rest.head?, Text.isDigit c = false) :
    takeNumber most (Text.formatInt n ++ rest) = some ((n : ℤ), rest) := by
  have hdigits : ∀ c ∈ Nat.toDigits 10 n, Text.isDigit c = true := fun c hc => Text.isDigit_toDigits hc
  have hformat : Text.formatInt n = Nat.toDigits 10 n := by
    rw [Text.formatInt, if_neg (by omega), Int.natAbs_natCast]
  have hpos : 1 ≤ (Nat.toDigits 10 n).length := List.length_pos_iff.mpr Nat.toDigits_ne_nil
  have hshort : (Nat.toDigits 10 n).length ≤ most := (Nat.length_toDigits_le_iff (by decide) hmost).mpr hn
  simp only [takeNumber, hformat, Text.takeWhile_word hdigits hrest, Text.dropWhile_word hdigits hrest]
  rw [if_pos ⟨hpos, hshort⟩, Text.digitsValue_toDigits (by decide)]

lemma takeSigned_formatInt {m : ℤ} (hm : m.natAbs < 10 ^ most) (hmost : 0 < most)
    (hrest : ∀ c ∈ rest.head?, Text.isDigit c = false) : takeSigned most (Text.formatInt m ++ rest) = some (m, rest) := by
  have hnumber := takeNumber_formatInt hm hmost hrest
  rw [takeSigned]
  by_cases hneg : m < 0
  · have htext : Text.formatInt m = '-' :: Text.formatInt m.natAbs := by
      rw [Text.formatInt, if_pos hneg, Text.formatInt, if_neg (by omega), Int.natAbs_natCast]
    rw [htext, List.cons_append, List.head?_cons, if_pos rfl, List.tail_cons, hnumber, Option.map_some]
    congr 2
    omega
  · have hcast : m = m.natAbs := by omega
    have hhead : (Text.formatInt m ++ rest).head? ≠ some '-' := by
      obtain ⟨d, ds, hd, hdigit⟩ := Text.exists_digit m.natAbs
      rw [Text.formatInt, if_neg hneg, hd]
      simpa using Text.isDigit_ne hdigit (by decide)
    rw [if_neg hhead, hcast]
    exact hnumber

lemma takeChar_self (c : Char) (s : Chars) : takeChar c (c :: s) = some s := if_pos rfl

lemma takeSize_formatInt {m : ℕ} (hn : n < 10 ^ most) (hm : m < 10 ^ most) (hmost : 0 < most)
    (hrest : ∀ c ∈ rest.head?, Text.isDigit c = false) :
    takeSize most (Text.formatInt n ++ 'x' :: (Text.formatInt m ++ rest)) = some (((n : ℤ), (m : ℤ)), rest) := by
  have hx : ∀ c ∈ ('x' :: (Text.formatInt m ++ rest)).head?, Text.isDigit c = false := by
    intro c hc
    obtain rfl := Option.some.inj hc
    decide
  rw [takeSize, takeNumber_formatInt hn hmost hx, Option.bind_some, takeChar_self, Option.bind_some,
    takeNumber_formatInt hm hmost hrest, Option.map_some]

end Numbers

section Displays

variable {d : DisplayConfig} {displays r : List DisplayConfig}

structure DisplayConfig.Written (d : DisplayConfig) : Prop where
  x : 0 ≤ d.x ∧ d.x ≤ 2 * kMaxDimension
  y : 0 ≤ d.y ∧ d.y ≤ 2 * kMaxDimension
  width : 1 ≤ d.width ∧ d.width ≤ kMaxDimension
  height : 1 ≤ d.height ∧ d.height ≤ kMaxDimension
  measured : d.MeasuredOrNot

lemma matchDisplay_reportedText (h : d.Written) : matchDisplay (reportedText true d) = some d := by
  obtain ⟨⟨hx, hx'⟩, ⟨hy, hy'⟩, ⟨hw, hw'⟩, ⟨hh, hh'⟩, hmeasured⟩ := h
  rw [kMaxDimension] at *
  obtain ⟨x, y, width, height, mmWidth, mmHeight⟩ := d
  simp only [DisplayConfig.MeasuredOrNot] at *
  lift width to ℕ using by omega
  lift height to ℕ using by omega
  have hcomma (s : Chars) : ∀ c ∈ (',' :: s).head?, Text.isDigit c = false := by
    intro c hc
    obtain rfl := Option.some.inj hc
    decide
  simp only [matchDisplay, reportedText, true_and]
  rw [takeSigned_formatInt (by omega) (by decide) (hcomma _), Option.bind_some, takeChar_self, Option.bind_some,
    takeSigned_formatInt (by omega) (by decide) (hcomma _), Option.bind_some, takeChar_self, Option.bind_some]
  by_cases hmm : 0 < mmWidth ∧ 0 < mmHeight
  · lift mmWidth to ℕ using by omega
    lift mmHeight to ℕ using by omega
    have hat (s : Chars) : ∀ c ∈ ('@' :: s).head?, Text.isDigit c = false := by
      intro c hc
      obtain rfl := Option.some.inj hc
      decide
    have hsize : takeSize 5 (Text.formatInt mmWidth ++ 'x' :: (Text.formatInt mmHeight ++ [])) =
        some (((mmWidth : ℤ), (mmHeight : ℤ)), []) := takeSize_formatInt (by omega) (by omega) (by decide) (by simp)
    rw [List.append_nil] at hsize
    rw [if_pos hmm, takeSize_formatInt (by omega) (by omega) (by decide) (hat _), Option.bind_some]
    dsimp only
    rw [if_neg (List.cons_ne_nil _ _), takeChar_self, Option.bind_some, hsize, Option.bind_some, if_pos rfl]
  · obtain ⟨rfl, rfl⟩ : mmWidth = 0 ∧ mmHeight = 0 := by omega
    rw [if_neg hmm, takeSize_formatInt (by omega) (by omega) (by decide) (by simp), Option.bind_some, if_pos rfl]

def isDisplayChar (c : Char) : Bool := Text.isDigit c || c ∈ ['-', ',', 'x', '@']

lemma isDisplayChar_formatInt {m : ℤ} {c : Char} (h : c ∈ Text.formatInt m) : isDisplayChar c = true := by
  rw [Text.formatInt] at h
  split_ifs at h
  · rcases List.mem_cons.mp h with rfl | h
    · decide
    · simp [isDisplayChar, Text.isDigit_toDigits h]
  · simp [isDisplayChar, Text.isDigit_toDigits h]

lemma isDisplayChar_reportedText {c : Char} (h : c ∈ reportedText true d) : isDisplayChar c = true := by
  simp only [reportedText, List.mem_append, List.mem_cons] at h
  rcases h with h | rfl | h | rfl | h | rfl | h | h
  · exact isDisplayChar_formatInt h
  · decide
  · exact isDisplayChar_formatInt h
  · decide
  · exact isDisplayChar_formatInt h
  · decide
  · exact isDisplayChar_formatInt h
  · split_ifs at h
    · simp only [List.mem_append, List.mem_cons] at h
      rcases h with rfl | h | rfl | h
      · decide
      · exact isDisplayChar_formatInt h
      · decide
      · exact isDisplayChar_formatInt h
    · exact absurd h List.not_mem_nil

lemma isSpace_of_isDisplayChar {c : Char} (h : isDisplayChar c = true) : CoreEventParser.isSpace c = false := by
  simp only [isDisplayChar, Bool.or_eq_true, decide_eq_true_eq, List.mem_cons, List.not_mem_nil, or_false] at h
  rcases h with h | rfl | rfl | rfl | rfl
  · have hc := of_decide_eq_true h
    have hrange : c.toNat ∉ [0x85, 0xA0, 0x1680, 0x2028, 0x2029, 0x202F, 0x205F, 0x3000] := by
      intro hmem
      simp only [List.mem_cons, List.not_mem_nil, or_false] at hmem
      omega
    have hspaces : ¬(0x2000 ≤ c.toNat ∧ c.toNat ≤ 0x200A) := by omega
    simp only [CoreEventParser.isSpace, Text.isSpace_of_isDigit h, decide_eq_false hrange, decide_eq_false hspaces,
      Bool.or_false]
  all_goals decide

lemma trimmed_eq {s : Chars} (h : ∀ c ∈ s, CoreEventParser.isSpace c = false) : trimmed s = s := by
  rw [trimmed, Text.dropWhile_head fun c hc => h c (List.mem_of_mem_head? hc),
    Text.rdropWhile_last fun c hc => h c (List.mem_of_mem_getLast? hc)]

lemma reportedText_ne_nil (d : DisplayConfig) : reportedText true d ≠ [] := by
  rw [reportedText]
  exact List.append_ne_nil_of_right_ne_nil _ (List.cons_ne_nil _ _)

lemma splitParts_intercalate {parts : List Chars} (h : ∀ part ∈ parts, ';' ∉ part ∧ part ≠ []) :
    splitParts ([';'].intercalate parts) = parts := by
  cases parts with
  | nil => decide
  | cons part parts =>
    induction parts generalizing part with
    | nil =>
      obtain ⟨hsep, hne⟩ := h part List.mem_cons_self
      rw [List.intercalate_singleton, splitParts, Lines.lines, Lines.unfinished, Lines.split_of_not_mem hsep]
      simp [hne]
    | cons next parts ih =>
      obtain ⟨hsep, hne⟩ := h part List.mem_cons_self
      have hrest := ih next fun p hp => h p (List.mem_cons_of_mem part hp)
      rw [List.intercalate_cons_cons, List.append_assoc, List.singleton_append, splitParts, Lines.lines_append_line hsep,
        Lines.unfinished_append_line hsep, List.cons_append, List.filter_cons_of_pos (by simpa using hne)]
      exact congrArg (part :: ·) hrest

lemma displaysFromText_displaysToText (h : ∀ d ∈ displays, d.Written) :
    displaysFromText (displaysToText displays true) = displaysFromJson displays := by
  have hparts : ∀ part ∈ displays.map (reportedText true), ';' ∉ part ∧ part ≠ [] := by
    intro part hpart
    obtain ⟨d, -, rfl⟩ := List.mem_map.mp hpart
    refine ⟨fun hmem => ?_, reportedText_ne_nil d⟩
    exact absurd (isDisplayChar_reportedText hmem) (by decide)
  have hmatch (d : DisplayConfig) (hd : d ∈ displays) : matchDisplay (trimmed (reportedText true d)) = some d := by
    rw [trimmed_eq fun c hc => isSpace_of_isDisplayChar (isDisplayChar_reportedText hc)]
    exact matchDisplay_reportedText (h d hd)
  rw [displaysFromText, displaysToText, splitParts_intercalate hparts, List.filterMap_map]
  congr 1
  calc displays.filterMap ((fun part => matchDisplay (trimmed part)) ∘ reportedText true)
      = displays.filterMap some := List.filterMap_congr hmatch
    _ = displays := List.filterMap_some

lemma displayOfMap_displayMap (d : DisplayConfig) : displayOfMap (displayMap d) = d := rfl

lemma displaysFromArray_displaysToJson (displays : List DisplayConfig) :
    displaysFromArray (displaysToJson displays) = displaysFromJson displays := by
  rw [displaysFromArray, displaysToJson, List.map_map]
  exact congrArg displaysFromJson ((List.map_congr_left fun d _ => displayOfMap_displayMap d).trans (List.map_id displays))

def keptDisplays (reported : List DisplayConfig) : List DisplayConfig :=
  ((reported.filter fun d => decide (0 < d.width ∧ 0 < d.height)).take kMaxReportedDisplays).map cleanDisplay

def Near (d e : DisplayConfig) : Prop := d.x - e.x ≤ kMaxDimension ∧ d.y - e.y ≤ kMaxDimension

instance (d e : DisplayConfig) : Decidable (Near d e) := inferInstanceAs (Decidable (_ ∧ _))

/-- No display that is kept starts further from another one than the limit. -/
def WithinReach (reported : List DisplayConfig) : Prop :=
  ∀ d ∈ keptDisplays reported, ∀ e ∈ keptDisplays reported, Near d e

instance (reported : List DisplayConfig) : Decidable (WithinReach reported) :=
  inferInstanceAs (Decidable (∀ d ∈ keptDisplays reported, ∀ e ∈ keptDisplays reported, Near d e))

def DisplayConfig.capped (d : DisplayConfig) : DisplayConfig :=
  { d with x := min d.x kMaxDimension, y := min d.y kMaxDimension }

lemma minOf_spec (f : DisplayConfig → ℤ) (d : DisplayConfig) (ds : List DisplayConfig) :
    (∀ e ∈ d :: ds, minOf f d ds ≤ f e) ∧ ∃ e ∈ d :: ds, minOf f d ds = f e := by
  obtain ⟨⟨hfirst, hall⟩, hsome⟩ := foldl_min f ds (f d)
  constructor
  · intro e he
    rcases List.mem_cons.mp he with rfl | he
    · exact hfirst
    · exact hall e he
  · rcases hsome with heq | ⟨e, he, heq⟩
    · exact ⟨d, List.mem_cons_self, heq⟩
    · exact ⟨e, List.mem_cons_of_mem d he, heq⟩

lemma keptDisplays_bounds (hd : d ∈ keptDisplays r) : (-kMaxDimension ≤ d.x ∧ d.x ≤ kMaxDimension) ∧
    (-kMaxDimension ≤ d.y ∧ d.y ≤ kMaxDimension) ∧ (1 ≤ d.width ∧ d.width ≤ kMaxDimension) ∧
      (1 ≤ d.height ∧ d.height ≤ kMaxDimension) ∧ d.MeasuredOrNot := by
  obtain ⟨e, he, rfl⟩ := List.mem_map.mp hd
  have hsize := of_decide_eq_true (List.mem_filter.mp (List.mem_of_mem_take he)).2
  simp only [cleanDisplay, qBound, kMaxDimension, DisplayConfig.MeasuredOrNot]
  refine ⟨by omega, by omega, by omega, by omega, ?_⟩
  split_ifs <;> omega

lemma length_keptDisplays (r : List DisplayConfig) : (keptDisplays r).length ≤ kMaxReportedDisplays := by
  rw [keptDisplays, List.length_map]
  exact List.length_take_le _ _

lemma moveToOrigin_spec (hne : displays ≠ []) : ∃ dx dy, moveToOrigin displays = displays.map (·.moved dx dy) ∧
    ((∀ d ∈ displays, dx ≤ d.x) ∧ ∃ d ∈ displays, dx = d.x) ∧ (∀ d ∈ displays, dy ≤ d.y) ∧ ∃ d ∈ displays, dy = d.y := by
  obtain ⟨d, ds, rfl⟩ := List.exists_cons_of_ne_nil hne
  exact ⟨_, _, rfl, minOf_spec DisplayConfig.x d ds, minOf_spec DisplayConfig.y d ds⟩

structure Report (displays : List DisplayConfig) : Prop where
  written : ∀ d ∈ displays, d.Written
  length : displays.length ≤ kMaxReportedDisplays
  corner : displays ≠ [] → (∃ d ∈ displays, d.x = 0) ∧ ∃ d ∈ displays, d.y = 0

lemma cleanDisplays_report (r : List DisplayConfig) : Report (cleanDisplays r) := by
  have hkept : cleanDisplays r = moveToOrigin (keptDisplays r) := rfl
  by_cases hne : keptDisplays r = []
  · rw [hkept, hne]
    exact ⟨fun d hd => absurd hd List.not_mem_nil, Nat.zero_le _, fun h => absurd rfl h⟩
  obtain ⟨dx, dy, hmoved, ⟨hx, ex, hex, hdx⟩, hy, ey, hey, hdy⟩ := moveToOrigin_spec hne
  rw [hkept, hmoved]
  refine ⟨?_, ?_, fun _ => ⟨?_, ?_⟩⟩
  · intro d hd
    obtain ⟨e, he, rfl⟩ := List.mem_map.mp hd
    obtain ⟨hex', hey', hwidth, hheight, hmeasured⟩ := keptDisplays_bounds he
    have hleft := hx e he
    have htop := hy e he
    have hcorner := (keptDisplays_bounds hex).1
    have hcorner' := (keptDisplays_bounds hey).2.1
    refine ⟨?_, ?_, hwidth, hheight, hmeasured⟩
    · simp only [DisplayConfig.moved]
      omega
    · simp only [DisplayConfig.moved]
      omega
  · rw [List.length_map]
    exact length_keptDisplays r
  · exact ⟨ex.moved dx dy, List.mem_map_of_mem hex, by simp [DisplayConfig.moved, hdx]⟩
  · exact ⟨ey.moved dx dy, List.mem_map_of_mem hey, by simp [DisplayConfig.moved, hdy]⟩

lemma cleanDisplay_written (h : d.Written) : cleanDisplay d = d.capped := by
  obtain ⟨⟨hx, hx'⟩, ⟨hy, hy'⟩, ⟨hw, hw'⟩, ⟨hh, hh'⟩, hmeasured⟩ := h
  obtain ⟨x, y, width, height, mmWidth, mmHeight⟩ := d
  simp only [cleanDisplay, DisplayConfig.capped, qBound, kMaxDimension, DisplayConfig.MeasuredOrNot, DisplayConfig.mk.injEq] at *
  refine ⟨by omega, by omega, by omega, by omega, ?_, ?_⟩
  · split_ifs <;> omega
  · split_ifs <;> omega

lemma capped_placed (h : d.Written) : d.capped.Placed := by
  obtain ⟨⟨hx, hx'⟩, ⟨hy, hy'⟩, hw, hh, -⟩ := h
  rw [kMaxDimension] at *
  simp only [DisplayConfig.Placed, DisplayConfig.capped, kMaxDimension]
  omega

lemma Report.cornered (h : Report displays) (hne : displays ≠ []) : Cornered (displays.map DisplayConfig.capped) := by
  obtain ⟨⟨ex, hex, hx⟩, ey, hey, hy⟩ := h.corner hne
  refine ⟨?_, ?_, ?_⟩
  · intro d hd
    obtain ⟨e, he, rfl⟩ := List.mem_map.mp hd
    exact capped_placed (h.written e he)
  · exact ⟨ex.capped, List.mem_map_of_mem hex, by simp [DisplayConfig.capped, hx, kMaxDimension]⟩
  · exact ⟨ey.capped, List.mem_map_of_mem hey, by simp [DisplayConfig.capped, hy, kMaxDimension]⟩

/-- Cleaned again, the coordinates are clamped again. -/
lemma cleanDisplays_capped (h : Report displays) : cleanDisplays displays = displays.map DisplayConfig.capped := by
  have hfilter : displays.filter (fun d => decide (0 < d.width ∧ 0 < d.height)) = displays := by
    rw [List.filter_eq_self]
    intro d hd
    obtain ⟨-, -, hwidth, hheight, -⟩ := h.written d hd
    simp only [decide_eq_true_eq]
    omega
  have hmap : displays.map cleanDisplay = displays.map DisplayConfig.capped :=
    List.map_congr_left fun d hd => cleanDisplay_written (h.written d hd)
  rw [cleanDisplays, hfilter, List.take_of_length_le h.length, hmap]
  by_cases hne : displays = []
  · rw [hne]
    rfl
  · exact moveToOrigin_eq (h.cornered hne)

lemma capped_eq_iff : d.capped = d ↔ d.x ≤ kMaxDimension ∧ d.y ≤ kMaxDimension := by
  obtain ⟨x, y, width, height, mmWidth, mmHeight⟩ := d
  simp [DisplayConfig.capped]

lemma cleanDisplays_eq_iff (h : Report displays) :
    cleanDisplays displays = displays ↔ ∀ d ∈ displays, d.x ≤ kMaxDimension ∧ d.y ≤ kMaxDimension := by
  rw [cleanDisplays_capped h]
  constructor
  · intro heq d hd
    rw [← capped_eq_iff]
    exact List.map_inj_left.mp (heq.trans (List.map_id displays).symm) d hd
  · intro hall
    exact (List.map_congr_left fun d hd => capped_eq_iff.mpr (hall d hd)).trans (List.map_id displays)

lemma withinReach_iff (r : List DisplayConfig) :
    WithinReach r ↔ ∀ d ∈ cleanDisplays r, d.x ≤ kMaxDimension ∧ d.y ≤ kMaxDimension := by
  have hkept : cleanDisplays r = moveToOrigin (keptDisplays r) := rfl
  rw [hkept]
  by_cases hne : keptDisplays r = []
  · rw [WithinReach, hne]
    exact iff_of_true (fun d hd => absurd hd List.not_mem_nil) fun d hd => absurd hd List.not_mem_nil
  obtain ⟨dx, dy, hmoved, ⟨hx, ex, hex, hdx⟩, hy, ey, hey, hdy⟩ := moveToOrigin_spec hne
  rw [hmoved]
  constructor
  · intro h d hd
    obtain ⟨e, he, rfl⟩ := List.mem_map.mp hd
    have hfromx := (h e he ex hex).1
    have hfromy := (h e he ey hey).2
    simp only [DisplayConfig.moved]
    omega
  · intro h d hd e he
    obtain ⟨hdx', hdy'⟩ := h (d.moved dx dy) (List.mem_map_of_mem hd)
    have hex' := hx e he
    have hey' := hy e he
    simp only [DisplayConfig.moved] at hdx' hdy'
    constructor
    · omega
    · omega

/-- A clean report is the same when it is cleaned again or read back exactly if no display lies out of reach of
another. -/
theorem reports_survive_iff (reported : List DisplayConfig) :
    (cleanDisplays (cleanDisplays reported) = cleanDisplays reported ∧
      displaysFromText (displaysToText (cleanDisplays reported) true) = cleanDisplays reported ∧
      displaysFromArray (displaysToJson (cleanDisplays reported)) = cleanDisplays reported) ↔ WithinReach reported := by
  have hreport := cleanDisplays_report reported
  have hread : displaysFromJson (cleanDisplays reported) = cleanDisplays (cleanDisplays reported) := by
    rw [displaysFromJson, List.take_of_length_le (hreport.length.trans (by decide))]
  rw [displaysFromText_displaysToText hreport.written, displaysFromArray_displaysToJson, hread, and_self_iff, and_self_iff,
    cleanDisplays_eq_iff hreport, withinReach_iff]

def apartReport : List DisplayConfig := [⟨-100000, 0, 1920, 1080, 0, 0⟩, ⟨100000, 0, 1920, 1080, 0, 0⟩]

theorem report_shrinks : ¬ ∀ reported,
    cleanDisplays (cleanDisplays reported) = cleanDisplays reported ∧
      displaysFromText (displaysToText (cleanDisplays reported) true) = cleanDisplays reported ∧
      displaysFromArray (displaysToJson (cleanDisplays reported)) = cleanDisplays reported := by
  intro h
  exact absurd (h apartReport).1 (by decide)

end Displays

end InputLeap.Gui
