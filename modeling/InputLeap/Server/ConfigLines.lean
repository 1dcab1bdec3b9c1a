import InputLeap.Server.ConfigSteps
import InputLeap.Server.ConfigWrite

/-! Lines as they are written, and how the reader takes them: indented, without a comment, and with no blank at their
ends. -/

namespace InputLeap

open InputLeap.Lib InputLeap.Lib.Text

def isLineChar (c : Char) : Bool := (isGraph c || isBlank c) && c != '#'

structure CleanLine (line : Name) : Prop where
  chars : ∀ c ∈ line, isLineChar c = true
  first : ∃ c ∈ line.head?, isBlank c = false
  last : ∃ c ∈ line.getLast?, isLineEnd c = false

section Clean

variable {line indent : Name}

lemma isLineChar_of_isGraph {c : Char} (h : isGraph c = true) (hne : c ≠ '#') : isLineChar c = true := by
  simp [isLineChar, h, hne]

lemma isLineEnd_of_isGraph {c : Char} (h : isGraph c = true) : isLineEnd c = false := by
  have hc := of_decide_eq_true h
  have hne {d : Char} (hd : isGraph d = false) : c ≠ d := by
    rintro rfl
    exact Bool.false_ne_true (hd ▸ h)
  simp [isLineEnd, isBlank, hne (d := ' ') (by decide), hne (d := '\t') (by decide), hne (d := '\r') (by decide)]

lemma isBlank_of_isGraph {c : Char} (h : isGraph c = true) : isBlank c = false := by
  have := isLineEnd_of_isGraph h
  simp only [isLineEnd, Bool.or_eq_false_iff] at this
  exact this.1

lemma stripFront_indent (hindent : ∀ c ∈ indent, isBlank c = true) (hfirst : ∃ c ∈ line.head?, isBlank c = false) :
    stripFront (indent ++ line) = line := by
  obtain ⟨c, hc, hblank⟩ := hfirst
  have hall : (indent ++ line).all isBlank = false := by
    apply List.all_eq_false.mpr
    exact ⟨c, List.mem_append_right _ (List.mem_of_mem_head? hc), by simp [hblank]⟩
  rw [stripFront, if_neg (by simp [hall]), dropWhile_word hindent]
  intro d hd
  obtain rfl := Option.some.inj (hc.symm.trans hd)
  exact hblank

lemma stripBack_eq (hlast : ∃ c ∈ line.getLast?, isLineEnd c = false) : stripBack line = line := by
  obtain ⟨c, hc, hend⟩ := hlast
  rw [stripBack]
  split_ifs
  · rfl
  · apply rdropWhile_last
    intro d hd
    obtain rfl := Option.some.inj (hc.symm.trans hd)
    exact hend

lemma stripLine_indent (hindent : ∀ c ∈ indent, isBlank c = true) (h : CleanLine line) :
    stripLine (indent ++ line) = some line := by
  have hcomment : line.takeWhile (fun c => c != '#') = line := by
    apply List.takeWhile_eq_self_iff.mpr
    intro c hc
    have := h.chars c hc
    simp only [isLineChar, Bool.and_eq_true] at this
    exact this.2
  have hne : line ≠ [] := by
    rintro rfl
    obtain ⟨c, hc, -⟩ := h.first
    nomatch hc
  rw [stripLine, stripFront_indent hindent h.first, hcomment, stripBack_eq h.last, if_neg hne]

lemma checkChars_clean (h : CleanLine line) : checkChars line = .ok () := by
  rw [checkChars]
  split
  · rename_i c hfind
    have hchar := h.chars c (List.mem_of_find?_eq_some hfind)
    have hbad := List.find?_some hfind
    simp_all [isLineChar]
  · rfl

variable {resolves : Name → Bool} {s : Reading}

lemma next_line {sect : SectionName} (hinside : s.inside = some sect) (hindent : ∀ c ∈ indent, isBlank c = true)
    (h : CleanLine line) : s.next resolves (indent ++ line) = (s.readSectionLine resolves sect line).toOption := by
  rw [Reading.next, Reading.readLine, stripLine_indent hindent h]
  dsimp only
  rw [checkChars_clean h, hinside]
  rfl

lemma next_content {sect : SectionName} (hinside : s.inside = some sect) (hindent : ∀ c ∈ indent, isBlank c = true)
    (h : CleanLine line) (hend : line ≠ "end".toList) :
    s.next resolves (indent ++ line) = (s.readContent resolves line sect).toOption := by
  rw [next_line hinside hindent h, Reading.readSectionLine, if_neg hend]

end Clean

section Sections

variable {resolves : Name → Bool} {s t : Reading} {sect : SectionName} {lines : List Name}

lemma next_section (sect : SectionName) (hs : s.inside = none) :
    s.next resolves ("section: " ++ sect.toString).toList = some { s with inside := some sect, screen := [] } := by
  have hstrip : stripLine ("section: " ++ sect.toString).toList = some ("section: " ++ sect.toString).toList := by
    cases sect <;> decide
  have hchars : checkChars ("section: " ++ sect.toString).toList = .ok () := by
    cases sect <;> rfl
  have hsection : s.readSection ("section: " ++ sect.toString).toList =
      .ok { s with inside := some sect, screen := [] } := by
    cases sect <;> rfl
  rw [Reading.next, Reading.readLine, hstrip]
  dsimp only
  rw [hchars, hs]
  exact congrArg Except.toOption hsection

lemma next_end (hinside : s.inside = some sect) : s.next resolves "end".toList = some { s with inside := none } := by
  have hclean : CleanLine "end".toList := ⟨by decide, ⟨'e', rfl, rfl⟩, ⟨'d', rfl, rfl⟩⟩
  have hnext : s.next resolves ([] ++ "end".toList) = _ := next_line hinside (by simp) hclean
  rw [List.nil_append] at hnext
  rw [hnext, Reading.readSectionLine, if_pos rfl]
  rfl

lemma runFrom_section (hs : s.inside = none)
    (hinside : ∀ t, runFrom (Reading.next resolves) lines { s with inside := some sect, screen := [] } = some t →
      t.inside = some sect) :
    runFrom (Reading.next resolves) (sectionLines sect lines) s =
      (runFrom (Reading.next resolves) lines { s with inside := some sect, screen := [] }).map fun t =>
        { t with inside := none } := by
  rw [sectionLines, List.cons_append, runFrom, next_section sect hs, Option.bind_some, runFrom_append]
  cases hrun : runFrom (Reading.next resolves) lines { s with inside := some sect, screen := [] } with
  | none => rfl
  | some t =>
    rw [Option.bind_some, runFrom, next_end (hinside t hrun)]
    rfl

end Sections

end InputLeap
