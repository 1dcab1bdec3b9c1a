import InputLeap.Server.ScreenLines

/-! The displays of a screen as they are written and read again. The line is refused if there is no display, if there
are more than 32, or if one of them has no size. -/

namespace InputLeap

open InputLeap.Lib InputLeap.Lib.Text
open Reading (IsInt32)

section Numbers

variable {fuel : ℕ} {n : ℤ} {rest : Name}

lemma takeSign_formatInt (n : ℤ) (rest : Name) :
    takeSign (formatInt n ++ rest) = (decide (n < 0), Nat.toDigits 10 n.natAbs ++ rest) := by
  rw [formatInt]
  split_ifs with hneg
  · rw [List.cons_append, takeSign, decide_eq_true hneg]
  · obtain ⟨c, s, hcs, hc⟩ := exists_digit n.natAbs
    rw [hcs, List.cons_append, takeSign_digit hc, decide_eq_false hneg]

lemma extractInts_formatInt (hn : IsInt32 n) (hrest : ∀ c ∈ rest.head?, isDigit c = false) :
    Reading.extractInts (fuel + 1) (' ' :: formatInt n ++ rest) =
      (n :: (Reading.extractInts fuel rest).1, (Reading.extractInts fuel rest).2) := by
  have hdigits := fun c (hc : c ∈ Nat.toDigits 10 n.natAbs) => isDigit_toDigits hc
  have hword := (formatInt_chars n).2
  obtain ⟨c, s, hcs⟩ := List.exists_cons_of_ne_nil (formatInt_chars n).1
  have hspace : (' ' :: formatInt n ++ rest).dropWhile isSpace = formatInt n ++ rest := by
    have hc : isSpace c = false := by
      have hgraph := of_decide_eq_true (isWordChar_iff (hword c (hcs ▸ List.mem_cons_self))).1
      apply decide_eq_false
      rintro (rfl | hlt)
      · exact absurd hgraph (by decide)
      · omega
    rw [List.cons_append, List.dropWhile_cons_of_pos (by decide)]
    exact dropWhile_head (by simpa [hcs] using hc)
  have hne : formatInt n ++ rest ≠ [] := by simp [hcs]
  have hvalue : signed (decide (n < 0)) (digitsValue 10 (Nat.toDigits 10 n.natAbs)) = n := by
    rw [digitsValue_toDigits (by decide), signed]
    split_ifs with hneg
    · have hlt := of_decide_eq_true hneg
      omega
    · have hlt := of_decide_eq_false (Bool.eq_false_iff.mpr hneg)
      omega
  rw [Reading.extractInts, hspace]
  dsimp only
  rw [if_neg hne, takeSign_formatInt]
  dsimp only
  rw [takeWhile_word hdigits hrest, dropWhile_word hdigits hrest, hvalue, if_neg]
  rintro (hnil | hrange)
  · exact Nat.toDigits_ne_nil hnil
  · exact hrange hn

lemma extractInts_ints {ns : List ℤ} (hns : ∀ n ∈ ns, IsInt32 n) (hfuel : ns.length ≤ fuel) :
    Reading.extractInts fuel (ns.flatMap fun n => ' ' :: formatInt n) = (ns, true) := by
  induction ns generalizing fuel with
  | nil => cases fuel <;> rfl
  | cons n ns ih =>
    obtain ⟨fuel, rfl⟩ : ∃ k, fuel = k + 1 := ⟨fuel - 1, by simp at hfuel; omega⟩
    have hrest : ∀ c ∈ (ns.flatMap fun n => ' ' :: formatInt n).head?, isDigit c = false := by
      cases ns with
      | nil => simp
      | cons k ns => simp [isDigit]
    rw [List.flatMap_cons, extractInts_formatInt (hns n List.mem_cons_self) hrest,
      ih (fun k hk => hns k (List.mem_cons_of_mem n hk)) (by simpa using hfuel)]

end Numbers

def displayValues (ds : List DisplayRect) : List ℤ := ds.flatMap fun d => [d.x, d.y, d.w, d.h]

lemma displayRects_values (ds : List DisplayRect) : Reading.displayRects (displayValues ds) = ds := by
  induction ds with
  | nil => rfl
  | cons d ds ih =>
    change d :: Reading.displayRects (displayValues ds) = d :: ds
    rw [ih]

lemma length_displayValues (ds : List DisplayRect) : (displayValues ds).length = 4 * ds.length := by
  induction ds with
  | nil => rfl
  | cons d ds ih =>
    change ([d.x, d.y, d.w, d.h] ++ displayValues ds).length = _
    simp only [List.length_append, List.length_cons, List.length_nil, ih]
    omega

def commaToSpace (c : Char) : Char := if c = ',' then ' ' else c

lemma writeDisplays_spaces (ds : List DisplayRect) :
    (ds.flatMap Config.writeDisplay).map commaToSpace = (displayValues ds).flatMap fun n => ' ' :: formatInt n := by
  have hint (n : ℤ) : (formatInt n).map commaToSpace = formatInt n := by
    refine (List.map_congr_left fun c hc => ?_).trans (List.map_id _)
    refine if_neg ?_
    rintro rfl
    have hword := (formatInt_chars n).2 ',' hc
    exact absurd hword (by decide)
  rw [displayValues, List.flatMap_assoc, List.map_flatMap]
  apply List.flatMap_congr
  intro d _
  simp [Config.writeDisplay, hint, commaToSpace]

def readableDisplays (ds : List DisplayRect) : Prop :=
  ds ≠ [] ∧ ds.length ≤ 32 ∧ ∀ d ∈ ds, 0 < d.w ∧ 0 < d.h

instance (ds : List DisplayRect) : Decidable (readableDisplays ds) := inferInstanceAs (Decidable (_ ∧ _ ∧ _))

def DisplayRect.InRange (d : DisplayRect) : Prop := IsInt32 d.x ∧ IsInt32 d.y ∧ IsInt32 d.w ∧ IsInt32 d.h

def displaysLine (name : Name) (ds : List DisplayRect) : Name := '\t' :: name ++ " =".toList ++ ds.flatMap Config.writeDisplay

section Line

variable {resolves : Name → Bool} {s : Reading} {name : Name} {ds : List DisplayRect}

lemma displaysLine_clean (ds : List DisplayRect) (hne : name ≠ []) (hname : ∀ c ∈ name, isWordChar c = true) :
    CleanLine (name ++ " =".toList ++ ds.flatMap Config.writeDisplay) := by
  have hint {n : ℤ} {c : Char} (hc : c ∈ formatInt n) : isGraph c = true ∧ c ≠ '#' :=
    let hword := isWordChar_iff ((formatInt_chars n).2 c hc)
    ⟨hword.1, hword.2.2.1⟩
  refine ⟨?_, ?_, ?_⟩
  · intro c hc
    simp only [Config.writeDisplay, List.mem_append, List.mem_flatMap, List.mem_cons] at hc
    rcases hc with (hc | hc) | ⟨d, -, hc⟩
    · have hword := isWordChar_iff (hname c hc)
      exact isLineChar_of_isGraph hword.1 hword.2.2.1
    · revert c
      decide
    · rcases hc with (((((((rfl | hc) | rfl | hc) | rfl | hc) | rfl | hc)))) <;>
        first | rfl | exact isLineChar_of_isGraph (hint hc).1 (hint hc).2
  · obtain ⟨c, u, rfl⟩ := List.exists_cons_of_ne_nil hne
    exact ⟨c, rfl, isBlank_of_isGraph (isWordChar_iff (hname c List.mem_cons_self)).1⟩
  · rcases List.eq_nil_or_concat ds with rfl | ⟨ds, d, rfl⟩
    · exact ⟨'=', by simp, rfl⟩
    · obtain ⟨hne, -⟩ := formatInt_chars d.h
      refine ⟨(formatInt d.h).getLast hne, ?_, isLineEnd_of_isGraph (hint (List.getLast_mem hne)).1⟩
      simp [Config.writeDisplay, List.getLast?_append, List.getLast?_cons, List.getLast?_eq_some_getLast hne]

lemma readDisplaysLine_eq (hname : ∀ c ∈ name, isWordChar c = true)
    (hds : ∀ d ∈ ds, d.InRange) (hcanonical : s.config.getCanonicalName name ≠ []) :
    (s.readDisplaysLine (name ++ " =".toList ++ ds.flatMap Config.writeDisplay)).toOption =
      if readableDisplays ds then some (s.setConfig { s.config with
        displays := (s.config.displays.erase (s.config.getCanonicalName name)).insert (s.config.getCanonicalName name) ds })
      else none := by
  have hbefore : ∀ c ∈ name ++ [' '], (c != '=') = true := by
    intro c hc
    rcases List.mem_append.mp hc with hc | hc
    · exact bne_iff_ne.mpr (isWordChar_iff (hname c hc)).2.2.2.1
    · rw [List.mem_singleton.mp hc]
      rfl
  have hline : name ++ " =".toList ++ ds.flatMap Config.writeDisplay =
      (name ++ [' ']) ++ '=' :: ds.flatMap Config.writeDisplay := by simp
  have htrim : (name ++ [' ']).rdropWhile isBlank = name := by
    rw [List.rdropWhile_concat_pos _ _ _ (by decide)]
    apply rdropWhile_last
    intro c hc
    exact isBlank_of_isGraph (isWordChar_iff (hname c (List.mem_of_mem_getLast? hc))).1
  have hnumbers : (ds.flatMap Config.writeDisplay).map (fun c => if c = ',' then ' ' else c) =
      (displayValues ds).flatMap fun n => ' ' :: formatInt n := writeDisplays_spaces ds
  have hvalues : ∀ n ∈ displayValues ds, IsInt32 n := by
    intro n hn
    obtain ⟨d, hd, hn⟩ := List.mem_flatMap.mp hn
    obtain ⟨hx, hy, hw, hh⟩ := hds d hd
    simp only [List.mem_cons, List.not_mem_nil, or_false] at hn
    rcases hn with rfl | rfl | rfl | rfl <;> assumption
  have hfuel (l : List ℤ) : l.length ≤ (l.flatMap fun n => ' ' :: formatInt n).length + 1 := by
    induction l with
    | nil => simp
    | cons n l ih =>
      simp only [List.flatMap_cons, List.length_append, List.length_cons] at ih ⊢
      omega
  rw [hline, Reading.readDisplaysLine, dropWhile_word hbefore (by simp), takeWhile_word hbefore (by simp), htrim]
  dsimp only
  rw [if_neg hcanonical, hnumbers, extractInts_ints hvalues (hfuel _)]
  dsimp only
  rw [length_displayValues, displayRects_values]
  by_cases hreadable : readableDisplays ds
  · obtain ⟨hnil, hlength, hsize⟩ := hreadable
    have hlist : displayValues ds ≠ [] := by
      apply List.ne_nil_of_length_pos
      rw [length_displayValues]
      have := List.length_pos_of_ne_nil hnil
      omega
    have hany : (ds.any fun d => decide (d.w ≤ 0 ∨ d.h ≤ 0)) = false := by
      rw [List.any_eq_false]
      intro d hd
      have := hsize d hd
      simp
      omega
    rw [if_neg (by simp [hlist]; omega), hany, if_neg (by simp), if_pos ⟨hnil, hlength, hsize⟩]
    rfl
  · rw [if_neg hreadable]
    by_cases hshape : true = false ∨ displayValues ds = [] ∨ 4 * ds.length % 4 ≠ 0 ∨ 4 * ds.length > 4 * 32
    · rw [if_pos hshape]
      rfl
    · rw [if_neg hshape, if_pos]
      · rfl
      · by_contra hany
        rw [Bool.not_eq_true, List.any_eq_false] at hany
        refine hreadable ⟨?_, by omega, fun d hd => ?_⟩
        · rintro rfl
          exact hshape (.inr (.inl rfl))
        · have := hany d hd
          simp at this
          omega

lemma next_displaysLine (hinside : s.inside = some .displays) (hne : name ≠ [])
    (hname : ∀ c ∈ name, isWordChar c = true) (hds : ∀ d ∈ ds, d.InRange)
    (hcanonical : s.config.getCanonicalName name ≠ []) :
    s.next resolves (displaysLine name ds) =
      if readableDisplays ds then some (s.setConfig { s.config with
        displays := (s.config.displays.erase (s.config.getCanonicalName name)).insert (s.config.getCanonicalName name) ds })
      else none := by
  have hnot : name ++ " =".toList ++ ds.flatMap Config.writeDisplay ≠ "end".toList := by
    intro h
    have hmem : '=' ∈ name ++ " =".toList ++ ds.flatMap Config.writeDisplay := by simp
    rw [h] at hmem
    exact absurd hmem (by decide)
  have hline : displaysLine name ds = ['\t'] ++ (name ++ " =".toList ++ ds.flatMap Config.writeDisplay) := by
    simp [displaysLine]
  rw [hline, next_content hinside (by decide) (displaysLine_clean ds hne hname) hnot, Reading.readContent]
  exact readDisplaysLine_eq hname hds hcanonical

end Line

end InputLeap
