import InputLeap.Lib.Separated
import InputLeap.Lib.Text
import InputLeap.Server.ConfigRead

/-! The names of screens. The check of a name goes from dot to dot, and accepts just the names of a grammar. -/

namespace InputLeap

open InputLeap.Lib Computability

def isEdgeChar (c : Char) : Bool := c.isAlphanum || c == '_'

namespace Config

/-- `find('.', b)`, or the end of the name. -/
def partEnd (name : Name) (b : ℕ) : ℕ := b + ((name.drop b).takeWhile fun c => c != '.').length

lemma partEnd_le {name : Name} {b : ℕ} (hb : b ≤ name.length) : partEnd name b ≤ name.length := by
  have := (List.takeWhile_prefix (l := name.drop b) fun c => c != '.').length_le
  rw [List.length_drop] at this
  rw [partEnd]
  omega

/-- The parts from position `b` on. One that starts at the end of the name, behind a dot, is accepted. -/
def validFrom (name : Name) (b : ℕ) : Bool :=
  if b = name.length then true
  else
    let e := partEnd name b
    if e - b < 1 then false
    else if !(name[b]?.any isEdgeChar) || !(name[e - 1]?.any isEdgeChar) then false
    else if (List.range' b (e - b)).any fun i => !(name[i]?.any fun c => c.isAlphanum || c == '_' || c == '-') then false
    else if e = name.length then true
    else validFrom name (e + 1)
termination_by name.length - b
decreasing_by
  rcases Nat.lt_or_ge name.length b with hlt | hle
  · have : partEnd name b = b := by simp [partEnd, List.drop_eq_nil_of_le hlt.le]
    omega
  · have := partEnd_le hle
    omega

def isValidScreenName (name : Name) : Bool := if name = [] then false else validFrom name 0

end Config

section Grammar

def edgeChar : Language Char := {w | ∃ c, ('A' ≤ c ∧ c ≤ 'Z' ∨ 'a' ≤ c ∧ c ≤ 'z' ∨ '0' ≤ c ∧ c ≤ '9' ∨ c = '_') ∧ w = [c]}

def innerChar : Language Char := edgeChar + {['-']}

def partName : Language Char := edgeChar + edgeChar * innerChar∗ * edgeChar

/-- `name ("." name)*`, with a dot behind it or none. -/
def validName : Language Char := separated '.' partName

end Grammar

section Parts

open Reading

variable {part w r : Name}

lemma validParts_word (hw : '.' ∉ w) : validParts part w = (decide (part ++ w = []) || validPart (part ++ w)) := by
  induction w generalizing part with
  | nil => simp [validParts]
  | cons c w ih =>
    have hc : c ≠ '.' := fun h => hw (h ▸ List.mem_cons_self)
    rw [validParts, if_neg hc, ih (List.not_mem_of_not_mem_cons hw)]
    simp

lemma validParts_dot (hw : '.' ∉ w) :
    validParts part (w ++ '.' :: r) = (validPart (part ++ w) && validParts [] r) := by
  induction w generalizing part with
  | nil => simp [validParts]
  | cons c w ih =>
    have hc : c ≠ '.' := fun h => hw (h ▸ List.mem_cons_self)
    rw [List.cons_append, validParts, if_neg hc, ih (List.not_mem_of_not_mem_cons hw)]
    simp

end Parts

section Characters

variable {c : Char} {w : Name}

lemma isEdgeChar_iff :
    isEdgeChar c = true ↔ 'A' ≤ c ∧ c ≤ 'Z' ∨ 'a' ≤ c ∧ c ≤ 'z' ∨ '0' ≤ c ∧ c ≤ '9' ∨ c = '_' := by
  rw [isEdgeChar, Bool.or_eq_true, Text.isAlphanum_iff, beq_iff_eq]
  simp only [Char.le_def, UInt32.le_iff_toNat_le, Char.toNat_val, Char.reduceToNat]
  tauto

lemma mem_edgeChar : w ∈ edgeChar ↔ ∃ c, isEdgeChar c = true ∧ w = [c] := by
  simp only [isEdgeChar_iff]
  rfl

lemma mem_innerChar : w ∈ innerChar ↔ ∃ c, (isEdgeChar c || c == '-') = true ∧ w = [c] := by
  rw [innerChar, Language.mem_add, mem_edgeChar]
  constructor
  · rintro (⟨c, hc, rfl⟩ | hw)
    · exact ⟨c, by simp [hc], rfl⟩
    · exact ⟨'-', by simp, hw⟩
  · rintro ⟨c, hc, rfl⟩
    rw [Bool.or_eq_true, beq_iff_eq] at hc
    rcases hc with hc | rfl
    · exact .inl ⟨c, hc, rfl⟩
    · exact .inr rfl

lemma mem_innerChars : w ∈ innerChar∗ ↔ ∀ c ∈ w, (isEdgeChar c || c == '-') = true := by
  induction w with
  | nil => simp [Language.nil_mem_kstar]
  | cons c w ih =>
    rw [← Language.one_add_self_mul_kstar_eq_kstar, Language.mem_add, List.forall_mem_cons, ← ih, Language.mem_mul]
    constructor
    · rintro (h | ⟨a, ha, b, hb, heq⟩)
      · cases h
      · obtain ⟨d, hd, rfl⟩ := mem_innerChar.mp ha
        obtain ⟨rfl, rfl⟩ := List.cons.inj heq
        exact ⟨hd, hb⟩
    · rintro ⟨hc, hw⟩
      exact .inr ⟨[c], mem_innerChar.mpr ⟨c, hc, rfl⟩, w, hw, rfl⟩

lemma validPart_iff : Reading.validPart w = true ↔ w ∈ partName := by
  have hpart : Reading.validPart w = true ↔ (w.head?.any isEdgeChar = true ∧ w.getLast?.any isEdgeChar = true) ∧
      ∀ c ∈ w, (isEdgeChar c || c == '-') = true := by
    change (w.head?.any isEdgeChar && w.getLast?.any isEdgeChar && w.all _) = true ↔ _
    rw [Bool.and_eq_true, Bool.and_eq_true, List.all_eq_true]
    rfl
  rw [hpart, partName, Language.mem_add, mem_edgeChar]
  constructor
  · rintro ⟨⟨hfirst, hlast⟩, hall⟩
    obtain ⟨a, t, rfl⟩ : ∃ a t, w = a :: t := by
      cases w with
      | nil => cases hfirst
      | cons a t => exact ⟨a, t, rfl⟩
    rcases List.eq_nil_or_concat t with rfl | ⟨u, b, rfl⟩
    · exact .inl ⟨a, hfirst, rfl⟩
    · refine .inr ⟨[a] ++ u, ⟨[a], mem_edgeChar.mpr ⟨a, hfirst, rfl⟩, u, mem_innerChars.mpr ?_, rfl⟩, [b], ?_, by simp⟩
      · intro c hc
        exact hall c (by simp [hc])
      · refine mem_edgeChar.mpr ⟨b, ?_, rfl⟩
        rw [List.concat_eq_append, ← List.cons_append, List.getLast?_concat] at hlast
        exact hlast
  · rintro (⟨c, hc, rfl⟩ | ⟨v, ⟨x, hx, u, hu, rfl⟩, y, hy, rfl⟩)
    · simp [hc]
    · obtain ⟨a, ha, rfl⟩ := mem_edgeChar.mp hx
      obtain ⟨b, hb, rfl⟩ := mem_edgeChar.mp hy
      refine ⟨⟨ha, ?_⟩, ?_⟩
      · dsimp only
        rw [List.getLast?_concat]
        exact hb
      · intro c hc
        simp only [List.cons_append, List.nil_append, List.mem_cons, List.mem_append, List.not_mem_nil, or_false] at hc
        rcases hc with rfl | hc | rfl
        · simp [ha]
        · exact mem_innerChars.mp hu c hc
        · simp [hb]

lemma not_dot_of_part (h : w ∈ partName) : '.' ∉ w := by
  intro hdot
  rw [← validPart_iff, Reading.validPart] at h
  simp only [Bool.and_eq_true, List.all_eq_true] at h
  exact absurd (h.2 '.' hdot) (by decide)

end Characters

lemma validParts_iff (s : Name) : Reading.validParts [] s = true ↔ s = [] ∨ s ∈ validName := by
  induction hn : s.length using Nat.strong_induction_on generalizing s with
  | _ n ih =>
    subst hn
    by_cases hdot : '.' ∈ s
    · obtain ⟨w, r, rfl, hw⟩ := List.eq_append_cons_of_mem hdot
      have hr := ih r.length (by simp only [List.length_append, List.length_cons]; omega) r rfl
      rw [validParts_dot hw, Bool.and_eq_true, List.nil_append, validPart_iff, hr, validName,
        mem_separated_append (fun _ => not_dot_of_part) hw]
      simp
    · rw [validParts_word hdot, Bool.or_eq_true, decide_eq_true_eq, List.nil_append, validPart_iff, validName,
        mem_separated_word hdot]

section Scanner

variable {name w rest : Name} {b : ℕ} (h : name.drop b = w ++ rest)

include h

lemma getElem?_part {i : ℕ} (hi : i < w.length) : name[b + i]? = w[i]? := by
  rw [← List.getElem?_drop, h, List.getElem?_append_left hi]

lemma any_part (p : Char → Bool) : ((List.range' b w.length).any fun i => !(name[i]?.any p)) = !w.all p := by
  rw [Bool.eq_iff_iff, Bool.not_eq_true', List.all_eq_false, List.any_eq_true]
  constructor
  · rintro ⟨i, hi, hp⟩
    obtain ⟨j, hj, rfl⟩ := List.mem_range'.mp hi
    rw [one_mul, getElem?_part h hj, List.getElem?_eq_getElem hj] at hp
    exact ⟨w[j], List.getElem_mem hj, by simpa using hp⟩
  · rintro ⟨c, hc, hp⟩
    obtain ⟨j, hj, rfl⟩ := List.mem_iff_getElem.mp hc
    refine ⟨b + j, List.mem_range'.mpr ⟨j, hj, by rw [one_mul]⟩, ?_⟩
    rw [getElem?_part h hj, List.getElem?_eq_getElem hj]
    simpa using hp

lemma validPart_scanned (hw : w ≠ []) (next : Bool) :
    (if !(name[b]?.any isEdgeChar) || !(name[b + w.length - 1]?.any isEdgeChar) then false
      else if (List.range' b w.length).any fun i => !(name[i]?.any fun c => c.isAlphanum || c == '_' || c == '-') then false
      else next) = (Reading.validPart w && next) := by
  have hpos : 0 < w.length := List.length_pos_iff.mpr hw
  have hfirst : name[b]? = w.head? := by
    rw [← Nat.add_zero b, getElem?_part h hpos, List.head?_eq_getElem?]
  have hlast : name[b + w.length - 1]? = w.getLast? := by
    rw [Nat.add_sub_assoc hpos, getElem?_part h (by omega), List.getLast?_eq_getElem?]
  have hpart : Reading.validPart w = (w.head?.any isEdgeChar && w.getLast?.any isEdgeChar &&
      w.all fun c => c.isAlphanum || c == '_' || c == '-') := rfl
  rw [hfirst, hlast, any_part h, hpart]
  cases w.head?.any isEdgeChar with
  | false => rfl
  | true =>
    cases w.getLast?.any isEdgeChar with
    | false => rfl
    | true =>
      cases w.all fun c => c.isAlphanum || c == '_' || c == '-' with
      | false => rfl
      | true => rfl

end Scanner

namespace Config

lemma validFrom_eq {name : Name} {b : ℕ} (hb : b ≤ name.length) : validFrom name b = Reading.validParts [] (name.drop b) := by
  induction hn : name.length - b using Nat.strong_induction_on generalizing b with
  | _ n ih =>
    subst hn
    obtain ⟨w, rest, hw, hrest, hdrop, hend⟩ : ∃ w rest, '.' ∉ w ∧ (rest = [] ∨ ∃ r, rest = '.' :: r) ∧
        name.drop b = w ++ rest ∧ partEnd name b = b + w.length := by
      refine ⟨_, _, ?_, ?_, (List.takeWhile_append_dropWhile (p := fun c => c != '.')).symm, rfl⟩
      · intro hmem
        simpa using List.mem_takeWhile_imp hmem
      · rcases hdrop : (name.drop b).dropWhile fun c => c != '.' with _ | ⟨c, r⟩
        · exact .inl rfl
        · have hnot := List.head?_dropWhile_not (fun c => c != '.') (name.drop b)
          rw [hdrop] at hnot
          obtain rfl : c = '.' := by simpa using hnot
          exact .inr ⟨r, rfl⟩
    have hlength := congrArg List.length hdrop
    rw [List.length_drop, List.length_append] at hlength
    rw [validFrom, hend]
    dsimp only
    rw [Nat.add_sub_cancel_left, hdrop]
    by_cases hall : b = name.length
    · obtain ⟨rfl, rfl⟩ : w = [] ∧ rest = [] := by
        rw [hall, List.drop_length] at hdrop
        exact List.append_eq_nil_iff.mp hdrop.symm
      rw [if_pos hall]
      rfl
    rw [if_neg hall]
    by_cases hnil : w = []
    · subst hnil
      rcases hrest with rfl | ⟨r, rfl⟩
      · simp only [List.length_nil] at hlength
        omega
      · rfl
    · have hpos : 0 < w.length := List.length_pos_iff.mpr hnil
      rw [if_neg (by omega), validPart_scanned hdrop hnil]
      rcases hrest with rfl | ⟨r, rfl⟩
      · rw [List.length_nil, Nat.add_zero] at hlength
        rw [if_pos (by omega), List.append_nil, validParts_word hw, List.nil_append]
        simp [hnil]
      · rw [List.length_cons] at hlength
        have hdrop' : name.drop (b + w.length + 1) = r := by
          rw [Nat.add_assoc, ← List.drop_drop, hdrop]
          simp
        rw [if_neg (by omega), validParts_dot hw, List.nil_append, ih _ _ (by omega) rfl, hdrop']
        omega

lemma isValidScreenName_eq (name : Name) : isValidScreenName name = Reading.isValidScreenName name := by
  rw [isValidScreenName, Reading.isValidScreenName, validFrom_eq (Nat.zero_le _), List.drop_zero]
  split_ifs with hname
  · simp [hname]
  · simp [hname]

theorem isValidScreenName_iff (name : Name) : isValidScreenName name = true ↔ name ∈ validName := by
  rw [isValidScreenName_eq, Reading.isValidScreenName, Bool.and_eq_true, decide_eq_true_eq, validParts_iff]
  constructor
  · rintro ⟨hne, h⟩
    exact h.resolve_left hne
  · intro h
    refine ⟨?_, .inr h⟩
    rintro rfl
    obtain ⟨w, hw, hnil⟩ := mem_separated.mp h
    obtain rfl : w = [] := by simpa [eq_comm] using hnil
    exact absurd (validPart_iff.mpr hw) (by decide)

end Config

end InputLeap
