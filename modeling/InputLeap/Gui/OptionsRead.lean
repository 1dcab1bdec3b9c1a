import InputLeap.Gui.ConfigText
import InputLeap.Server.AliasLines
import InputLeap.Server.DisplaysLines
import InputLeap.Server.LinkLines

/-! What the server reads of the configuration that the GUI writes: the screens with their options, the aliases and the
global options. -/

namespace InputLeap.Gui

open InputLeap.Lib InputLeap.Lib.Text
open Reading (IsInt32)

section Values

def cornerMask (i : Fin 4) : OptionValue := [kTopLeftMask, kTopRightMask, kBottomLeftMask, kBottomRightMask].get i

def cornersMask (corners : Fin 4 → Bool) : OptionValue :=
  (List.finRange 4).foldl (fun mask i => if corners i then mask ||| cornerMask i else mask) kNoCornerMask

def boolValue (on : Bool) : OptionValue := if on then 1 else 0

def intValue (n : ℤ) : OptionValue := BitVec.ofInt 32 n

def modifierOption (i : Fin 5) : OptionID :=
  [kOptionModifierMapForShift, kOptionModifierMapForControl, kOptionModifierMapForAlt, kOptionModifierMapForMeta,
    kOptionModifierMapForSuper].get i

def modifierValue (i : Fin 6) : OptionValue :=
  [kKeyModifierIDShift, kKeyModifierIDControl, kKeyModifierIDAlt, kKeyModifierIDMeta, kKeyModifierIDSuper,
    kKeyModifierIDNull].get i

def fixOption (i : Fin 5) : OptionID :=
  [kOptionHalfDuplexCapsLock, kOptionHalfDuplexNumLock, kOptionHalfDuplexScrollLock, kOptionXTestXineramaUnaware,
    kOptionScreenPreserveFocus].get i

def ScreenConfig.optionList (s : ScreenConfig) : List (OptionID × OptionValue) :=
  (((List.finRange 5).filter fun i => decide (s.modifiers i ≠ i.castSucc)).map fun i =>
      (modifierOption i, modifierValue (s.modifiers i))) ++
    ((List.finRange 5).map fun i => (fixOption i, boolValue (s.fixes i))) ++
    [(kOptionScreenSwitchCorners, cornersMask s.corners), (kOptionScreenSwitchCornerSize, intValue s.cornerSize)]

def LayoutOptions.optionList (o : LayoutOptions) : List (OptionID × OptionValue) :=
  (if o.hasHeartbeat then [(kOptionHeartbeat, intValue o.heartbeat)] else []) ++
    [(kOptionRelativeMouseMoves, boolValue o.relativeMouseMoves),
      (kOptionScreenSaverSync, boolValue o.screenSaverSync),
      (kOptionWin32KeepForeground, boolValue o.win32KeepForeground),
      (kOptionClipboardSharing, boolValue o.clipboardSharing),
      (kOptionClipboardSharingSize, intValue o.clipboardSharingSize)] ++
    (if o.hasSwitchDelay then [(kOptionScreenSwitchDelay, intValue o.switchDelay)] else []) ++
    (if o.hasSwitchDoubleTap then [(kOptionScreenSwitchTwoTap, intValue o.switchDoubleTap)] else []) ++
    [(kOptionScreenSwitchCorners, cornersMask o.switchCorners),
      (kOptionScreenSwitchCornerSize, intValue o.switchCornerSize),
      (kOptionScreenDimmingEnabled, boolValue o.dimmingEnabled),
      (kOptionScreenDimmingPercentage, intValue o.dimmingPercentage)]

def optionMap (os : List (OptionID × OptionValue)) : ScreenOptions := os.foldl (fun m o => m.insert o.1 o.2) .empty

end Values

section Lines

variable {resolves : Name → Bool} {s : Reading}

variable (resolves s) in
lemma next_blank {line indent : Name} (hindent : ∀ c ∈ indent, isBlank c = true) (h : CleanLine line) :
    s.next resolves (indent ++ line ++ [' ']) = s.next resolves (indent ++ line) := by
  have hstrip : stripLine (indent ++ line ++ [' ']) = some line := by
    obtain ⟨c, hc, hblank⟩ := h.first
    have hfirst : ∃ c ∈ (line ++ [' ']).head?, isBlank c = false := ⟨c, List.mem_head?_append_of_mem_head? hc, hblank⟩
    have hcomment : (line ++ [' ']).takeWhile (fun c => c != '#') = line ++ [' '] := by
      apply List.takeWhile_eq_self_iff.mpr
      intro d hd
      rcases List.mem_append.mp hd with hd | hd
      · have hline := h.chars d hd
        rw [isLineChar, Bool.and_eq_true] at hline
        exact hline.2
      · rw [List.mem_singleton.mp hd]
        rfl
    have hback : stripBack (line ++ [' ']) = line := by
      have hne : (line ++ [' ']).all isLineEnd = false := by
        obtain ⟨d, hd, hend⟩ := h.last
        rw [List.all_eq_false]
        exact ⟨d, List.mem_append_left _ (List.mem_of_mem_getLast? hd), by simp [hend]⟩
      rw [stripBack, hne, if_neg (by simp), List.rdropWhile_concat_pos _ _ _ (by decide)]
      apply rdropWhile_last
      obtain ⟨d, hd, hend⟩ := h.last
      intro e he
      rw [Option.mem_unique he hd, hend]
    have hnil : line ≠ [] := by
      rintro rfl
      simp at hc
    rw [stripLine, List.append_assoc, stripFront_indent hindent hfirst, hcomment, hback, if_neg hnil]
  rw [Reading.next, Reading.next, Reading.readLine, Reading.readLine, hstrip, stripLine_indent hindent h]

lemma runFrom_congr {ls ks : List Name} (h : List.Forall₂ (fun l k => ∀ s : Reading, s.next resolves l = s.next resolves k) ls ks)
    (s : Reading) : runFrom (Reading.next resolves) ls s = runFrom (Reading.next resolves) ks s := by
  induction h generalizing s with
  | nil => rfl
  | cons hlk _ ih =>
    rw [runFrom, runFrom, hlk s]
    congr 1
    funext t
    exact ih t

end Lines

section Screens

lemma few_values :
    ((∀ corners : Fin 4 → Bool, cornersText corners = formatCorners (cornersMask corners) ++ [' '] ∧
      (cornersMask corners).toNat < 16) ∧
    (∀ (i : Fin 5) (j : Fin 6), writeOption "\t\t".toList (modifierOption i, modifierValue j) =
      some (optionText "\t\t".toList (modifierNames.get i.castSucc) (modifierNames.get j).toList)) ∧
    ∀ (i : Fin 5) (on : Bool), writeOption "\t\t".toList (fixOption i, boolValue on) =
      some (optionText "\t\t".toList (fixNames.get i) (boolText on))) ∧
    (∀ i : Fin 5, ∃ row ∈ screenOptions, row.2.1 = modifierOption i ∧ row.2.2 = .modifierKey) ∧
    (∀ j : Fin 6, modifierValue j ∈ [kKeyModifierIDShift, kKeyModifierIDControl, kKeyModifierIDAlt, kKeyModifierIDAltGr,
      kKeyModifierIDMeta, kKeyModifierIDSuper, kKeyModifierIDNull]) ∧
    ∀ i : Fin 5, ∃ row ∈ screenOptions, row.2.1 = fixOption i ∧ row.2.2 = .boolean := by
  decide +kernel

lemma cornersText_eq (corners : Fin 4 → Bool) : cornersText corners = formatCorners (cornersMask corners) ++ [' '] :=
  (few_values.1.1 corners).1

lemma cornersMask_lt (corners : Fin 4 → Bool) : (cornersMask corners).toNat < 16 := (few_values.1.1 corners).2

lemma format_intValue {n : ℤ} (h : IsInt32 n) : OptionKind.int.format (intValue n) = formatInt n := congrArg formatInt h

lemma writeOption_modifier (i : Fin 5) (j : Fin 6) :
    writeOption "\t\t".toList (modifierOption i, modifierValue j) =
      some (optionText "\t\t".toList (modifierNames.get i.castSucc) (modifierNames.get j).toList) := few_values.1.2.1 i j

lemma writeOption_fix (i : Fin 5) (on : Bool) : writeOption "\t\t".toList (fixOption i, boolValue on) =
    some (optionText "\t\t".toList (fixNames.get i) (boolText on)) := few_values.1.2.2 i on

lemma known_modifier (i : Fin 5) (j : Fin 6) : Config.KnownOption screenOptions (modifierOption i, modifierValue j) := by
  obtain ⟨row, hrow, hid, hkind⟩ := few_values.2.1 i
  exact ⟨row, hrow, hid, hkind ▸ few_values.2.2.1 j⟩

lemma boolean_valid (on : Bool) : OptionKind.boolean.Valid (boolValue on) := by
  cases on
  · exact .inl rfl
  · exact .inr rfl

lemma known_fix (i : Fin 5) (on : Bool) : Config.KnownOption screenOptions (fixOption i, boolValue on) := by
  obtain ⟨row, hrow, hid, hkind⟩ := few_values.2.2.2 i
  exact ⟨row, hrow, hid, hkind ▸ boolean_valid on⟩

variable {resolves : Name → Bool} {s : Reading} {screen : ScreenConfig}

lemma known_screenOption : ∀ option ∈ screen.optionList, Config.KnownOption screenOptions option := by
  intro option hoption
  simp only [ScreenConfig.optionList, List.mem_append, List.mem_map, List.mem_cons, List.not_mem_nil, or_false] at hoption
  rcases hoption with (⟨i, -, rfl⟩ | ⟨i, -, rfl⟩) | rfl | rfl
  · exact known_modifier i _
  · exact known_fix i _
  · exact ⟨("switchCorners", kOptionScreenSwitchCorners, .corners), by decide, rfl, cornersMask_lt _⟩
  · exact ⟨("switchCornerSize", kOptionScreenSwitchCornerSize, .int), by decide, rfl, trivial⟩

lemma optionText_clean {name : String} (hname : isOptionWord name = true) (kind : OptionKind) (v : OptionValue) :
    CleanLine (name.toList ++ " = ".toList ++ kind.format v) := by
  obtain ⟨hne, hchars⟩ := isOptionWord_iff hname
  exact (optionLine_lineText hne hchars (format_lineText kind v)).clean

lemma next_cornersText {indent : Name} (hindent : ∀ c ∈ indent, isBlank c = true) (corners : Fin 4 → Bool) (s : Reading) :
    s.next resolves (optionText indent "switchCorners" (cornersText corners)) =
      s.next resolves (optionText indent "switchCorners" (formatCorners (cornersMask corners))) := by
  have hclean : CleanLine ("switchCorners".toList ++ " = ".toList ++ formatCorners (cornersMask corners)) :=
    optionText_clean (by decide) .corners _
  have hblank := next_blank resolves s hindent hclean
  rw [cornersText_eq]
  have htext (value : Name) : optionText indent "switchCorners" value =
      indent ++ ("switchCorners".toList ++ " = ".toList ++ value) := by
    simp only [optionText, List.append_assoc]
  rw [htext, htext, ← hblank]
  simp only [List.append_assoc]

lemma runFrom_screenLines (hinside : s.inside = some .screens) (hvalid : Reading.isValidScreenName screen.name = true)
    (hnew : s.config.isScreen screen.name = false) (hmap : s.config.map.contains screen.name = false)
    (hsize : IsInt32 screen.cornerSize) :
    runFrom (Reading.next resolves) screen.screenLines s =
      some (s.withCell screen.name (optionMap screen.optionList)) := by
  have hlines : List.Forall₂ (fun l k => ∀ s : Reading, s.next resolves l = s.next resolves k)
      screen.screenLines.tail (screen.optionList.filterMap (writeOption "\t\t".toList)) := by
    simp only [ScreenConfig.screenLines, ScreenConfig.optionList, List.cons_append, List.tail_cons, List.filterMap_append,
      List.filterMap_map]
    have hsame {α : Type} (l : List α) (f : α → Name) (g : α → Option Name) (h : ∀ a, g a = some (f a)) :
        List.Forall₂ (fun l k => ∀ s : Reading, s.next resolves l = s.next resolves k) (l.map f) (l.filterMap g) := by
      have hg : g = some ∘ f := funext h
      rw [hg, List.filterMap_eq_map]
      exact List.forall₂_same.mpr fun _ _ _ => rfl
    refine List.rel_append (List.rel_append ?_ ?_) ?_
    · exact hsame _ _ _ fun i => writeOption_modifier i (screen.modifiers i)
    · exact hsame _ _ _ fun i => writeOption_fix i (screen.fixes i)
    · have hcorners := @writeOption_eq kOptionScreenSwitchCorners "switchCorners" .corners rfl rfl "\t\t".toList
        (cornersMask screen.corners)
      have hcornerSize := @writeOption_eq kOptionScreenSwitchCornerSize "switchCornerSize" .int rfl rfl "\t\t".toList
        (intValue screen.cornerSize)
      rw [List.filterMap_cons_some hcorners, List.filterMap_cons_some hcornerSize, format_intValue hsize]
      refine .cons (fun s => ?_) (.cons (fun s => ?_) .nil)
      · rw [next_cornersText (by decide)]
        simp only [optionText, List.append_assoc, OptionKind.format]
      · simp only [optionText, List.append_assoc]
  have hcons : screen.screenLines = header screen.name :: screen.screenLines.tail := rfl
  rw [hcons, runFrom, next_screenHeader hinside hvalid hnew, Option.bind_some, runFrom_congr hlines]
  exact runFrom_screenOptions hinside (isNameChar_of_valid hvalid).1 hmap known_screenOption .empty

end Screens

end InputLeap.Gui
