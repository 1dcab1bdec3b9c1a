import InputLeap.Server.ReadInvariants

/-! Lines without content. A comment is always skipped, also behind blanks, and so is an empty line; but a line of
blanks, or with nothing but the carriage return of another system, is taken for content and refused. -/

namespace InputLeap

open InputLeap.Lib InputLeap.Lib.Text

def Blanks (s : Name) : Prop := ∀ c ∈ s, isBlank c = true

def IsComment (s : Name) : Prop := '\n' ∉ s ∧ (s = [] ∨ s.head? = some '#')

/-- A line of blanks, perhaps with a carriage return behind them and a comment behind that. -/
structure InsertedLine (w : Name) : Prop where
  parts : ∃ blanks cr comment, w = blanks ++ cr ++ comment ∧ Blanks blanks ∧ (cr = [] ∨ cr = ['\r']) ∧ IsComment comment

structure AppendedText (t : Name) : Prop where
  parts : ∃ blanks comment, t = blanks ++ comment ∧ Blanks blanks ∧ IsComment comment

def AtLineStart (pre : Name) : Prop := pre = [] ∨ ∃ s, pre = s ++ ['\n']

def AtLineEnd (post : Name) : Prop := post = [] ∨ ∃ s, post = '\n' :: s

def SameReading (resolves : Name → Bool) (text text' : Name) : Prop :=
  (readConfig resolves text).toOption = (readConfig resolves text').toOption

/-- A line that is skipped: an empty one, or a comment with only blanks in front of it. -/
def SkippedLine (w : Name) : Prop := w = [] ∨ ∃ blanks comment, w = blanks ++ '#' :: comment ∧ Blanks blanks

section Lines

variable {acc s line post : Name}

lemma getlines_split (acc s t : Name) : getlines acc (s ++ '\n' :: t) = getlines acc (s ++ ['\n']) ++ getlines [] t := by
  induction s generalizing acc with
  | nil => rfl
  | cons c s ih =>
    rw [List.cons_append, List.cons_append, getlines, getlines]
    split_ifs
    · rw [ih, List.cons_append]
    · exact ih _

lemma getlines_append {pre : Name} (h : AtLineStart pre) (t : Name) : getlines [] (pre ++ t) = getlines [] pre ++ getlines [] t := by
  rcases h with rfl | ⟨s, rfl⟩
  · rfl
  · rw [List.append_assoc, List.singleton_append, getlines_split]

lemma getlines_inserted (h : '\n' ∉ line) (t : Name) : getlines [] (line ++ '\n' :: t) = line :: getlines [] t := by
  rw [getlines_line [] h, List.nil_append]

lemma getlines_last (h : '\n' ∉ line) : getlines acc line = if acc ++ line = [] then [] else [acc ++ line] := by
  induction line generalizing acc with
  | nil => simp [getlines]
  | cons c line ih =>
    have hc : c ≠ '\n' := fun hc => h (hc ▸ List.mem_cons_self)
    rw [getlines, if_neg hc, ih (List.not_mem_of_not_mem_cons h)]
    simp

end Lines

section Readers

variable {resolves : Name → Bool} {s : Reading} {u w : Name}

lemma blank_ne (hu : Blanks u) {c : Char} (hc : isBlank c = false) : c ∉ u := by
  intro hmem
  exact absurd (hu c hmem) (by simp [hc])

lemma dropWhile_blanks (hu : Blanks u) (w : Name) : (u ++ w).dropWhile isBlank = w.dropWhile isBlank := by
  induction u with
  | nil => rfl
  | cons c u ih =>
    rw [List.cons_append, List.dropWhile_cons_of_pos (hu c List.mem_cons_self)]
    exact ih fun d hd => hu d (List.mem_cons_of_mem c hd)

lemma readSectionLine_blanks (hu : Blanks u) (hne : u ≠ []) (sect : SectionName) :
    (s.readSectionLine resolves sect u).toOption = none := by
  obtain ⟨c, v, rfl⟩ := List.exists_cons_of_ne_nil hne
  have hc : isBlank c = true := hu c List.mem_cons_self
  have hend : c :: v ≠ "end".toList := by
    intro h
    rw [(List.cons.inj h).1] at hc
    cases hc
  have hlast : (c :: v).getLast? ≠ some ':' := by
    intro h
    have hmem := List.mem_of_mem_getLast? h
    exact absurd (hu ':' hmem) (by decide)
  have hparse (type : String) (delim : List Char) : parseNameWithArgs type delim (c :: v) = .error ("missing " ++ type) := by
    rw [parseNameWithArgs, List.dropWhile_eq_nil_iff.mpr hu, if_pos rfl]
  rw [Reading.readSectionLine, if_neg hend]
  cases sect with
  | options =>
    rw [Reading.readContent, Reading.readOptionLine, hparse]
    rfl
  | screens =>
    rw [Reading.readContent, Reading.readScreenLine, if_neg hlast]
    split_ifs
    · rfl
    · rw [Reading.splitArgument, List.takeWhile_cons_of_neg (by simp [hc])]
      rfl
  | links =>
    rw [Reading.readContent, Reading.readLinkLine, if_neg hlast]
    split_ifs
    · rfl
    · rw [hparse]
      rfl
  | aliases =>
    have hinvalid : Reading.isValidScreenName (c :: v) = false := by
      rw [← Bool.not_eq_true]
      intro hvalid
      have hname := (isNameChar_of_valid hvalid).2 c List.mem_cons_self
      rw [isBlank, Bool.or_eq_true, beq_iff_eq, beq_iff_eq] at hc
      rcases hc with rfl | rfl <;> cases hname
    rw [Reading.readContent, Reading.readAliasLine, if_neg hlast, if_pos hinvalid]
    split_ifs <;> rfl
  | displays =>
    have hdrop : (c :: v).dropWhile (fun d => d != '=') = [] := by
      rw [List.dropWhile_eq_nil_iff]
      intro d hd
      have := blank_ne hu (c := '=') rfl
      simp only [bne_iff_ne]
      rintro rfl
      exact this hd
    rw [Reading.readContent, Reading.readDisplaysLine, hdrop]
    rfl

lemma next_blanks (hu : Blanks u) (hne : u ≠ []) : s.next resolves u = none := by
  have hline : stripLine u = some u := by
    have hcomment : u.takeWhile (fun c => c != '#') = u := by
      rw [List.takeWhile_eq_self_iff]
      intro c hc
      simp only [bne_iff_ne]
      rintro rfl
      exact blank_ne hu rfl hc
    have hends : u.all isLineEnd = true := by
      rw [List.all_eq_true]
      intro c hc
      rw [isLineEnd, hu c hc, Bool.true_or]
    rw [stripLine, stripFront, if_pos (List.all_eq_true.mpr hu), hcomment, stripBack, if_pos hends, if_neg hne]
  have hcheck : checkChars u = .ok () := by
    have hfind : u.find? (fun c => !(isGraph c || isBlank c)) = none := by
      rw [List.find?_eq_none]
      intro c hc
      simp [hu c hc]
    rw [checkChars, hfind]
  rw [Reading.next, Reading.readLine, hline]
  dsimp only
  rw [hcheck]
  cases hinside : s.inside with
  | none =>
    have hsection : "section:".toList.isPrefixOf u = false := by
      obtain ⟨c, v, rfl⟩ := List.exists_cons_of_ne_nil hne
      have hc : ('s' == c) = false := by
        rw [beq_eq_false_iff_ne]
        rintro rfl
        exact blank_ne hu rfl List.mem_cons_self
      have htext : "section:".toList = 's' :: "ection:".toList := rfl
      rw [htext, List.isPrefixOf_cons_cons, hc, Bool.false_and]
    change (s.readSection u).toOption = none
    rw [Reading.readSection, if_pos hsection]
    rfl
  | some sect => exact readSectionLine_blanks hu hne sect

end Readers

section Reading

variable {resolves : Name → Bool}

lemma readConfig_toOption (text : Name) : (readConfig resolves text).toOption =
    (runFrom (Reading.next resolves) (getlines [] text) .start).bind fun t =>
      if t.inside = none then some t.toStoredConfig else none := by
  apply Option.ext
  intro c
  have hok : (readConfig resolves text).toOption = some c ↔ readConfig resolves text = .ok c := by
    cases readConfig resolves text with
    | error e => simp [Except.toOption]
    | ok d => simp [Except.toOption]
  rw [hok, readConfig_eq_ok, Option.bind_eq_some_iff]
  apply exists_congr
  intro t
  apply and_congr_right
  intro _
  split_ifs with hinside
  · simp [hinside]
  · simp [hinside]

end Reading

section Content

variable {resolves : Name → Bool} {s : Reading} {u w line comment : Name}

lemma next_congr (h : stripLine u = stripLine w) : s.next resolves u = s.next resolves w := by
  rw [Reading.next, Reading.next, Reading.readLine, Reading.readLine, h]

lemma next_skipped (h : SkippedLine w) : s.next resolves w = some s := by
  have hline : stripLine w = none := by
    rcases h with rfl | ⟨blanks, comment, rfl, hblanks⟩
    · rfl
    · have hfront : stripFront (blanks ++ '#' :: comment) = '#' :: comment := by
        have hnot : (blanks ++ '#' :: comment).all isBlank = false := by
          rw [List.all_append, List.all_cons, show isBlank '#' = false from rfl, Bool.false_and, Bool.and_false]
        rw [stripFront, if_neg (by simp [hnot]), dropWhile_blanks hblanks]
        rfl
      rw [stripLine, hfront]
      rfl
  rw [Reading.next, Reading.readLine, hline]
  rfl

lemma stripLine_eq (hfront : ∃ c ∈ u, isBlank c = false) (hu : '#' ∉ u) (hcomment : IsComment comment) :
    stripLine (u ++ comment) =
      if stripBack (u.dropWhile isBlank) = [] then none else some (stripBack (u.dropWhile isBlank)) := by
  obtain ⟨c, hc, hblank⟩ := hfront
  have hnot : (u ++ comment).all isBlank = false := List.all_eq_false.mpr ⟨c, List.mem_append_left _ hc, by simp [hblank]⟩
  have hfront : stripFront (u ++ comment) = u.dropWhile isBlank ++ comment := by
    have hne : u.dropWhile isBlank ≠ [] := by
      intro hnil
      exact absurd (List.dropWhile_eq_nil_iff.mp hnil c hc) (by simp [hblank])
    rw [stripFront, hnot, if_neg Bool.false_ne_true, List.dropWhile_append, if_neg (by simp [hne])]
  have htake : (u.dropWhile isBlank ++ comment).takeWhile (fun c => c != '#') = u.dropWhile isBlank := by
    apply takeWhile_word
    · intro d hd
      simp only [bne_iff_ne]
      rintro rfl
      exact hu ((List.dropWhile_suffix _).subset hd)
    · rcases hcomment.2 with rfl | hhead
      · simp
      · simp [hhead]
  rw [stripLine, hfront, htake]

lemma next_return (hu : ∀ c ∈ u, isLineEnd c = true) (hreturn : '\r' ∈ u) (hcomment : IsComment comment) :
    s.next resolves (u ++ comment) = none := by
  have hu' : '#' ∉ u := fun h => absurd (hu '#' h) (by decide)
  have hkept : '\r' ∈ u.dropWhile isBlank := by
    rw [← List.takeWhile_append_dropWhile (p := isBlank) (l := u), List.mem_append] at hreturn
    rcases hreturn with h | h
    · exact absurd (List.mem_takeWhile_imp h) (by decide)
    · exact h
  have hback : stripBack (u.dropWhile isBlank) = u.dropWhile isBlank := by
    rw [stripBack, if_pos]
    rw [List.all_eq_true]
    intro c hc
    exact hu c ((List.dropWhile_suffix _).subset hc)
  have hcheck : ∃ e, checkChars (u.dropWhile isBlank) = .error e := by
    cases h : checkChars (u.dropWhile isBlank) with
    | error e => exact ⟨e, rfl⟩
    | ok _ =>
      rcases checkChars_ok h '\r' hkept with h | h
      · exact absurd h (by decide)
      · exact absurd h (by decide)
  obtain ⟨e, hcheck⟩ := hcheck
  rw [Reading.next, Reading.readLine, stripLine_eq ⟨'\r', hreturn, rfl⟩ hu' hcomment, hback,
    if_neg (List.ne_nil_of_mem hkept)]
  dsimp only
  rw [hcheck]
  rfl

lemma stripBack_append (hline : ∃ c ∈ line, isLineEnd c = false) (hu : Blanks u) :
    stripBack (line ++ u) = stripBack line := by
  obtain ⟨c, hc, hend⟩ := hline
  have hline : line.all isLineEnd = false := List.all_eq_false.mpr ⟨c, hc, by simp [hend]⟩
  have hdrop : (line ++ u).rdropWhile isLineEnd = line.rdropWhile isLineEnd := by
    rw [List.rdropWhile, List.reverse_append, List.dropWhile_append_of_pos, List.rdropWhile]
    intro d hd
    rw [isLineEnd, hu d (List.mem_reverse.mp hd), Bool.true_or]
  rw [stripBack, stripBack, List.all_append, hline, Bool.false_and, if_neg Bool.false_ne_true, hdrop,
    if_neg Bool.false_ne_true]

lemma stripLine_append_of_comment (hline : '#' ∈ line) (t : Name) : stripLine (line ++ t) = stripLine line := by
  have hmem : '#' ∈ line.dropWhile isBlank := by
    rw [← List.takeWhile_append_dropWhile (p := isBlank) (l := line), List.mem_append] at hline
    rcases hline with h | h
    · exact absurd (List.mem_takeWhile_imp h) (by decide)
    · exact h
  have hnot : line.all isBlank = false := List.all_eq_false.mpr ⟨'#', hline, by decide⟩
  have hfront : stripFront (line ++ t) = stripFront line ++ t := by
    rw [stripFront, stripFront, List.all_append, hnot, Bool.false_and, if_neg Bool.false_ne_true, List.dropWhile_append,
      if_neg (by simpa using List.ne_nil_of_mem hmem), if_neg Bool.false_ne_true]
  have htake : (stripFront line ++ t).takeWhile (fun c => c != '#') = (stripFront line).takeWhile fun c => c != '#' := by
    rw [stripFront, hnot, if_neg Bool.false_ne_true, List.takeWhile_append, if_neg]
    intro hlength
    have heq := List.IsPrefix.eq_of_length (List.takeWhile_prefix fun c => c != '#') hlength
    rw [← heq] at hmem
    exact absurd (List.mem_takeWhile_imp hmem) (by decide)
  rw [stripLine, stripLine, hfront, htake]

lemma next_append {t : Name} (hline : ¬ Blanks line) (ht : AppendedText t) :
    s.next resolves (line ++ t) = s.next resolves line := by
  by_cases hmark : '#' ∈ line
  · exact next_congr (stripLine_append_of_comment hmark t)
  obtain ⟨blanks, comment, rfl, hblanks, hcomment⟩ := ht.parts
  have hfront : ∃ c ∈ line, isBlank c = false := by
    by_contra hnone
    apply hline
    intro c hc
    by_contra hblank
    exact hnone ⟨c, hc, by simpa using hblank⟩
  have hnil : IsComment [] := ⟨by simp, .inl rfl⟩
  by_cases hends : ∀ c ∈ line, isLineEnd c = true
  · -- a carriage return is left, and refused with the blanks as without them
    obtain ⟨c, hc, hblank⟩ := hfront
    have hreturn : '\r' ∈ line := by
      have := hends c hc
      rw [isLineEnd, hblank, Bool.false_or, beq_iff_eq] at this
      exact this ▸ hc
    have hends' : ∀ c ∈ line ++ blanks, isLineEnd c = true := by
      intro d hd
      rcases List.mem_append.mp hd with hd | hd
      · exact hends d hd
      · rw [isLineEnd, hblanks d hd, Bool.true_or]
    have hsame : s.next resolves _ = none := next_return hends hreturn hnil
    rw [List.append_nil] at hsame
    rw [hsame, ← List.append_assoc]
    exact next_return hends' (List.mem_append_left _ hreturn) hcomment
  · push Not at hends
    obtain ⟨c, hc, hend⟩ := hends
    have hend : isLineEnd c = false := by simpa using hend
    have hkept : c ∈ line.dropWhile isBlank := by
      have hsplit := hc
      rw [← List.takeWhile_append_dropWhile (p := isBlank) (l := line), List.mem_append] at hsplit
      rcases hsplit with h | h
      · rw [isLineEnd, List.mem_takeWhile_imp h] at hend
        cases hend
      · exact h
    have hdrop : (line ++ blanks).dropWhile isBlank = line.dropWhile isBlank ++ blanks := by
      rw [List.dropWhile_append, if_neg (by simpa using List.ne_nil_of_mem hkept)]
    have hmark' : '#' ∉ line ++ blanks := by
      rw [List.mem_append]
      rintro (h | h)
      · exact hmark h
      · exact blank_ne hblanks (by decide) h
    obtain ⟨d, hd, hblank⟩ := hfront
    apply next_congr
    have hsame := stripLine_eq ⟨d, hd, hblank⟩ hmark hnil
    rw [List.append_nil] at hsame
    rw [← List.append_assoc, stripLine_eq ⟨d, List.mem_append_left _ hd, hblank⟩ hmark' hcomment, hdrop,
      stripBack_append ⟨c, hkept, hend⟩ hblanks, hsame]

lemma next_inserted (hw : InsertedLine w) (hskip : ¬ SkippedLine w) : s.next resolves w = none := by
  obtain ⟨blanks, cr, comment, rfl, hblanks, hcr, hcomment⟩ := hw.parts
  rcases hcr with rfl | rfl
  · rw [List.append_nil] at hskip ⊢
    rcases hcomment.2 with rfl | hhead
    · rw [List.append_nil] at hskip ⊢
      exact next_blanks hblanks fun hnil => hskip (.inl hnil)
    · obtain ⟨t, rfl⟩ := List.head?_eq_some_iff.mp hhead
      exact absurd (.inr ⟨blanks, t, rfl, hblanks⟩) hskip
  · apply next_return _ (by simp) hcomment
    intro c hc
    rcases List.mem_append.mp hc with hc | hc
    · rw [isLineEnd, hblanks c hc, Bool.true_or]
    · rw [List.mem_singleton.mp hc]
      rfl

/-- Appended to blanks, blanks make a line refused and a comment makes it skipped. -/
lemma next_append_blanks {t : Name} (hline : Blanks line) (ht : AppendedText t)
    (h : t = [] ∨ (line = [] ↔ '#' ∈ t)) : s.next resolves (line ++ t) = s.next resolves line := by
  rcases h with rfl | h
  · rw [List.append_nil]
  obtain ⟨blanks, comment, rfl, hblanks, hcomment⟩ := ht.parts
  have hboth : Blanks (line ++ blanks) := fun c hc => (List.mem_append.mp hc).elim (hline c) (hblanks c)
  by_cases hnil : line = []
  · subst hnil
    have hmark : '#' ∈ comment := by
      rcases List.mem_append.mp (h.mp rfl) with hm | hm
      · exact absurd hm (blank_ne hblanks (by decide))
      · exact hm
    rcases hcomment.2 with rfl | hhead
    · cases hmark
    · obtain ⟨t, rfl⟩ := List.head?_eq_some_iff.mp hhead
      rw [List.nil_append, next_skipped (.inr ⟨blanks, t, rfl, hblanks⟩), next_skipped (.inl rfl)]
  · have hmark : '#' ∉ blanks ++ comment := fun hm => hnil (h.mpr hm)
    have hcomment : comment = [] := by
      rcases hcomment.2 with rfl | hhead
      · rfl
      · exact absurd (List.mem_append_right _ (List.mem_of_mem_head? hhead)) hmark
    rw [hcomment, List.append_nil, next_blanks hline hnil, next_blanks hboth (by simp [hnil])]

end Content

section Texts

variable {resolves : Name → Bool} {s : Reading} {pre post line line' w : Name}

lemma runFrom_line (hline : '\n' ∉ line) (hpost : AtLineEnd post) :
    runFrom (Reading.next resolves) (getlines [] (line ++ post)) s =
      (s.next resolves line).bind (runFrom (Reading.next resolves) (getlines [] post.tail)) := by
  rcases hpost with rfl | ⟨t, rfl⟩
  · rw [List.append_nil, getlines_last hline, List.nil_append]
    split_ifs with hnil
    · rw [hnil, next_skipped (.inl rfl)]
      rfl
    · rfl
  · rw [getlines_inserted hline]
    rfl

lemma sameReading_of_next (hpre : AtLineStart pre) (hpost : AtLineEnd post) (hline : '\n' ∉ line) (hline' : '\n' ∉ line')
    (h : ∀ s : Reading, s.next resolves line' = s.next resolves line) :
    SameReading resolves (pre ++ line ++ post) (pre ++ line' ++ post) := by
  rw [SameReading, readConfig_toOption, readConfig_toOption, List.append_assoc, List.append_assoc, getlines_append hpre,
    getlines_append hpre, runFrom_append, runFrom_append]
  congr 2
  funext s
  rw [runFrom_line hline hpost, runFrom_line hline' hpost, h]

lemma sameReading_of_skipped (hpre : AtLineStart pre) (hline : '\n' ∉ w) (h : SkippedLine w) :
    SameReading resolves (pre ++ post) (pre ++ w ++ '\n' :: post) := by
  rw [SameReading, readConfig_toOption, readConfig_toOption, List.append_assoc, getlines_append hpre,
    getlines_append hpre, getlines_inserted hline, runFrom_append, runFrom_append]
  congr 2
  funext s
  rw [runFrom, next_skipped h, Option.bind_some]

lemma readConfig_refused (hpre : AtLineStart pre) (hpost : AtLineEnd post) (hline : '\n' ∉ line)
    (h : ∀ s : Reading, s.next resolves line = none) : (readConfig resolves (pre ++ line ++ post)).toOption = none := by
  rw [readConfig_toOption, List.append_assoc, getlines_append hpre, runFrom_append, Option.bind_assoc]
  cases runFrom (Reading.next resolves) (getlines [] pre) .start with
  | none => rfl
  | some s => rw [Option.bind_some, runFrom_line hline hpost, h, Option.bind_none, Option.bind_none]

lemma not_mem_inserted (hw : InsertedLine w) : '\n' ∉ w := by
  obtain ⟨blanks, cr, comment, rfl, hblanks, hcr, hcomment⟩ := hw.parts
  rw [List.mem_append, List.mem_append]
  rintro ((h | h) | h)
  · exact blank_ne hblanks (by decide) h
  · rcases hcr with rfl | rfl <;> simp at h
  · exact hcomment.1 h

lemma not_mem_appended {t : Name} (ht : AppendedText t) : '\n' ∉ t := by
  obtain ⟨blanks, comment, rfl, hblanks, hcomment⟩ := ht.parts
  rw [List.mem_append]
  rintro (h | h)
  · exact blank_ne hblanks (by decide) h
  · exact hcomment.1 h

lemma readConfig_nil : (readConfig resolves []).toOption ≠ none := by
  rw [readConfig_toOption]
  exact Option.some_ne_none _

lemma readConfig_skipped (hline : '\n' ∉ w) (h : SkippedLine w) : (readConfig resolves w).toOption ≠ none := by
  have hsame : SameReading resolves _ _ := sameReading_of_next (.inl rfl) (.inl rfl) List.not_mem_nil hline fun s =>
    (next_skipped h).trans (next_skipped (.inl rfl)).symm
  rw [List.append_nil, List.append_nil, List.append_nil, List.nil_append, SameReading] at hsame
  rw [← hsame]
  exact readConfig_nil

lemma readConfig_blanks (hw : Blanks w) (hne : w ≠ []) : (readConfig resolves w).toOption = none := by
  have hrefused : (readConfig resolves _).toOption = none :=
    readConfig_refused (.inl rfl) (.inl rfl) (blank_ne hw (by decide)) fun s => next_blanks hw hne
  rwa [List.nil_append, List.append_nil] at hrefused

end Texts

/-- Inserting a line, or appending to one, is insignificant if the line is skipped, and otherwise refused somewhere. -/
theorem sameReading_iff (resolves : Name → Bool) :
    (∀ w, InsertedLine w →
      ((∀ pre post, AtLineStart pre → SameReading resolves (pre ++ post) (pre ++ w ++ '\n' :: post)) ↔ SkippedLine w)) ∧
    ∀ line t, '\n' ∉ line → AppendedText t →
      ((∀ pre post, AtLineStart pre → AtLineEnd post →
          SameReading resolves (pre ++ line ++ post) (pre ++ (line ++ t) ++ post)) ↔
        (Blanks line → t = [] ∨ (line = [] ↔ '#' ∈ t))) := by
  constructor
  · intro w hw
    constructor
    · intro hsame
      by_contra hskip
      have hrefused : (readConfig resolves _).toOption = none :=
        readConfig_refused (.inl rfl) (.inr ⟨[], rfl⟩) (not_mem_inserted hw) fun s => next_inserted hw hskip
      exact readConfig_nil ((hsame [] [] (.inl rfl)).trans hrefused)
    · intro hskip pre post hpre
      exact sameReading_of_skipped hpre (not_mem_inserted hw) hskip
  · intro line t hline ht
    have hline' : '\n' ∉ line ++ t := by
      rw [List.mem_append]
      rintro (h | h)
      · exact hline h
      · exact not_mem_appended ht h
    constructor
    · intro hsame hblanks
      obtain ⟨blanks, comment, rfl, hblanks', hcomment⟩ := ht.parts
      have hsame := hsame [] [] (.inl rfl) (.inl rfl)
      rw [List.nil_append, List.append_nil, List.nil_append, List.append_nil, SameReading] at hsame
      rcases hcomment.2 with rfl | hhead
      · rw [List.append_nil] at hsame ⊢
        have hmark : '#' ∉ blanks := blank_ne hblanks' (by decide)
        by_cases hnil : blanks = []
        · exact .inl hnil
        · refine .inr ⟨fun hempty => ?_, fun hmem => absurd hmem hmark⟩
          rw [hempty, List.nil_append, readConfig_blanks hblanks' hnil] at hsame
          exact absurd hsame readConfig_nil
      · obtain ⟨t, rfl⟩ := List.head?_eq_some_iff.mp hhead
        refine .inr ⟨fun _ => by simp, fun _ => ?_⟩
        by_contra hnil
        rw [readConfig_blanks hblanks hnil] at hsame
        have hboth : Blanks (line ++ blanks) := fun c hc => (List.mem_append.mp hc).elim (hblanks c) (hblanks' c)
        exact readConfig_skipped hline' (.inr ⟨line ++ blanks, t, by simp, hboth⟩) hsame.symm
    · intro h pre post hpre hpost
      apply sameReading_of_next hpre hpost hline hline'
      intro s
      by_cases hblanks : Blanks line
      · exact next_append_blanks hblanks ht (h hblanks)
      · exact next_append hblanks ht

def screensText : Name := "section: screens\n\ta:\n".toList

/-- Two blanks in front of the end of a section. -/
theorem blank_line_refused : InsertedLine "  ".toList ∧ AtLineStart screensText ∧ ∀ resolves : Name → Bool,
    ¬ SameReading resolves (screensText ++ "end\n".toList) (screensText ++ "  ".toList ++ '\n' :: "end\n".toList) := by
  have hw : Blanks "  ".toList := by
    intro c hc
    rcases List.mem_cons.mp hc with rfl | hc
    · rfl
    · rw [List.mem_singleton.mp hc]
      rfl
  have hpre : AtLineStart screensText := .inr ⟨"section: screens\n\ta:".toList, rfl⟩
  refine ⟨⟨"  ".toList, [], [], rfl, hw, .inl rfl, by simp, .inl rfl⟩, hpre, fun resolves hsame => ?_⟩
  have hread : (readConfig resolves (screensText ++ "end\n".toList)).toOption.isSome = true := by rfl
  rw [hsame, readConfig_refused hpre (.inr ⟨_, rfl⟩) (blank_ne hw rfl) fun s => next_blanks hw (by simp)] at hread
  cases hread

end InputLeap
