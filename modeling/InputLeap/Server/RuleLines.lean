import InputLeap.Server.LinkLines
import InputLeap.Server.StoredRules

/-! The rules as they are written and read again. Keys may have no text that can be read, names of screens come back in
the spelling of the screens, and a rule without actions cannot be read at all. -/

namespace InputLeap

open InputLeap.Lib InputLeap.Lib.Text

section Keys

/-- What is read from the text of a keystroke. The key `AltGr` is taken for the modifier. -/
def rereadKey (key : KeyID) (mask : KeyModifierMask) : Option (KeyID × KeyModifierMask) :=
  if key = KeyNames.kKeyAltGr then
    if mask &&& KeyNames.keyModifierAltGr ≠ 0 then none else some (KeyNames.kKeyNone, mask ||| KeyNames.keyModifierAltGr)
  else if KeyNames.Printable key then some (key, mask)
  else none

variable {key : KeyID} {button : ButtonID} {mask : KeyModifierMask}

lemma parseKeystroke_eq {s rest : Name} (hmodifiers : KeyNames.parseModifiers s = some (mask, rest)) :
    (parseKeystroke s).toOption = (KeyNames.parseKey rest).bind fun key =>
      if key = KeyNames.kKeyNone ∧ mask = 0 then none else some (key, mask) := by
  rw [parseKeystroke, hmodifiers]
  dsimp only
  cases KeyNames.parseKey rest with
  | none => rfl
  | some key =>
    rw [Option.bind_some]
    dsimp only
    split_ifs
    · rfl
    · rfl

lemma parseKeystroke_format (h : ValidKeystroke key mask) :
    (parseKeystroke (KeyNames.formatKey key mask)).toOption = rereadKey key mask := by
  rw [rereadKey]
  by_cases hkey : key = KeyNames.kKeyNone
  · have hmask := h.nonempty.resolve_left (not_not.mpr hkey)
    subst hkey
    rw [parseKeystroke_eq (KeyNames.parseModifiers_formatMask h.named hmask), KeyNames.parseKey_nil, Option.bind_some,
      if_neg fun h => hmask h.2, if_neg (by decide), if_pos (by decide)]
  · have hmodifiers := KeyNames.parseModifiers_formatKey h.named hkey
    split_ifs at hmodifiers ⊢ with haltGr hmask hprint
    · rw [parseKeystroke, hmodifiers]
      rfl
    · rw [parseKeystroke_eq hmodifiers, KeyNames.parseKey_nil, Option.bind_some, if_neg]
      rintro ⟨-, hzero⟩
      have hbit := congrArg (fun m => BitVec.getLsbD m 5) hzero
      rw [BitVec.getLsbD_or] at hbit
      exact absurd hbit (by simp [KeyNames.keyModifierAltGr])
    · rw [parseKeystroke_eq hmodifiers, KeyNames.parseKey_formatKeyName, if_pos hprint, Option.bind_some,
        if_neg fun h => hkey h.1]
    · rw [parseKeystroke_eq hmodifiers, KeyNames.parseKey_formatKeyName, if_neg hprint]
      rfl

lemma rereadKey_eq_some_iff (key : KeyID) (mask : KeyModifierMask) :
    rereadKey key mask = some (key, mask) ↔ key ≠ KeyNames.kKeyAltGr ∧ KeyNames.Printable key := by
  rw [rereadKey]
  split_ifs with haltGr hmask hprint
  · simp [haltGr]
  · rw [Option.some.injEq, Prod.mk.injEq]
    refine iff_of_false ?_ fun h => h.1 haltGr
    rintro ⟨hnone, -⟩
    rw [haltGr] at hnone
    exact absurd hnone (by decide)
  · exact iff_of_true rfl ⟨haltGr, hprint⟩
  · exact iff_of_false (by simp) fun h => hprint h.2

lemma formatButton_eq (h : KeyNames.NamedMask mask) (button : ButtonID) : formatButton button mask =
    KeyNames.modifiersText (KeyNames.bits mask) ++ Nat.toDigits 10 button.toNat := by
  have hdigits : formatInt button.toNat = Nat.toDigits 10 button.toNat := by
    rw [formatInt, if_neg (by omega), Int.natAbs_natCast]
  rw [formatButton, KeyNames.formatKey_eq h, if_neg (not_not.mpr rfl), hdigits]
  congr 1
  rcases List.eq_nil_or_concat (KeyNames.bits mask) with hnil | ⟨is, i, hbits⟩
  · rw [hnil]
    rfl
  · rw [List.concat_eq_append] at hbits
    have hi : i < 6 := KeyNames.bits_lt i (by rw [hbits]; simp)
    rw [hbits, KeyNames.modifiersText_concat, if_neg]
    · simp [KeyNames.modifiersText]
    · exact List.append_ne_nil_of_right_ne_nil _ (KeyNames.modifierName_parts hi).1

lemma parseMouse_format (h : ValidButton button mask) : parseMouse (formatButton button mask) = .ok (button, mask) := by
  have hlt := button.isLt
  have hstrtol : strtol 10 (Nat.toDigits 10 button.toNat ++ []) = ((button.toNat : ℤ), []) :=
    strtol_toDigits (by omega) (by simp)
  rw [List.append_nil] at hstrtol
  have hbutton : BitVec.ofInt 8 (button.toNat : ℤ) = button := by simp
  rw [parseMouse, formatButton_eq h.named, KeyNames.parseModifiers_digits h.named]
  dsimp only
  rw [hstrtol]
  dsimp only
  rw [hbutton, if_neg (by simp), if_neg]
  rintro (hnil | hzero)
  · exact Nat.toDigits_ne_nil hnil
  · exact h.nonzero hzero

end Keys

section Lists

def parts (part : Name) : Name → List Name
  | [] => [part]
  | ch :: s => if ch = ':' then part :: parts [] s else parts (part ++ [ch]) s

def listed (screens : Name) : List Name := (parts [] screens).filter fun n => decide (n ≠ [] ∧ n ≠ ['*'])

def colonText (names : List Name) : Name := ':' :: names.flatMap fun n => n ++ [':']

lemma parts_word {n : Name} (hn : ':' ∉ n) (part s : Name) : parts part (n ++ ':' :: s) = (part ++ n) :: parts [] s := by
  induction n generalizing part with
  | nil => simp [parts]
  | cons ch n ih =>
    have hne : ch ≠ ':' := fun h => hn (h ▸ List.mem_cons_self)
    rw [List.cons_append, parts, if_neg hne, ih fun h => hn (List.mem_cons_of_mem ch h), List.append_assoc,
      List.singleton_append]

lemma parts_last {n : Name} (hn : ':' ∉ n) (part : Name) : parts part n = [part ++ n] := by
  induction n generalizing part with
  | nil => simp [parts]
  | cons ch n ih =>
    have hne : ch ≠ ':' := fun h => hn (h ▸ List.mem_cons_self)
    rw [parts, if_neg hne, ih fun h => hn (List.mem_cons_of_mem ch h), List.append_assoc, List.singleton_append]

lemma parts_names {names : List Name} (h : ∀ n ∈ names, ':' ∉ n) (rest : Name) :
    parts [] (names.flatMap (fun n => n ++ [':']) ++ rest) = names ++ parts [] rest := by
  induction names with
  | nil => rfl
  | cons n names ih =>
    have htext : (n :: names).flatMap (fun n => n ++ [':']) ++ rest =
        n ++ ':' :: (names.flatMap (fun n => n ++ [':']) ++ rest) := by simp
    rw [htext, parts_word (h n List.mem_cons_self), ih fun m hm => h m (List.mem_cons_of_mem n hm)]
    rfl

lemma parts_colonText {names : List Name} (h : ∀ n ∈ names, ':' ∉ n) : parts [] (colonText names) = [] :: (names ++ [[]]) := by
  have := parts_names h []
  rw [List.append_nil] at this
  rw [colonText, parts, if_pos rfl, this]
  rfl

lemma listed_colonText {names : List Name} (h : ∀ n ∈ names, ':' ∉ n ∧ n ≠ [] ∧ n ≠ ['*']) :
    listed (colonText names) = names := by
  have hself : names.filter (fun n => decide (n ≠ [] ∧ n ≠ ['*'])) = names := by
    rw [List.filter_eq_self]
    intro n hn
    exact decide_eq_true (h n hn).2
  rw [listed, parts_colonText fun n hn => (h n hn).1, List.filter_cons_of_neg (by simp), List.filter_append, hself]
  simp

lemma colonText_inj {names names' : List Name} (h : ∀ n ∈ names, ':' ∉ n) (h' : ∀ n ∈ names', ':' ∉ n)
    (heq : colonText names = colonText names') : names = names' := by
  have := congrArg (parts []) heq
  rw [parts_colonText h, parts_colonText h'] at this
  exact List.append_cancel_right (List.cons.inj this).2

lemma parts_inner {names : List Name} (h : ∀ n ∈ names, ':' ∉ n) (hne : names ≠ []) :
    parts [] (colonText names).tail.dropLast = names := by
  obtain ⟨ns, n, hnames⟩ := (List.eq_nil_or_concat names).resolve_left hne
  rw [List.concat_eq_append] at hnames
  have htext : (colonText names).tail = ns.flatMap (fun n => n ++ [':']) ++ n ++ [':'] := by
    rw [hnames, colonText, List.tail_cons]
    simp
  rw [htext, List.dropLast_concat, parts_names fun m hm => h m (by rw [hnames]; simp [hm]),
    parts_last (h n (by rw [hnames]; simp)), hnames]
  rfl

lemma parts_intercalate {names : List Name} (h : ∀ n ∈ names, ':' ∉ n) (hne : names ≠ []) :
    parts [] ([':'].intercalate names) = names := by
  obtain ⟨n, names, rfl⟩ := List.exists_cons_of_ne_nil hne
  induction names generalizing n with
  | nil => rw [List.intercalate_singleton, parts_last (h n List.mem_cons_self), List.nil_append]
  | cons m names ih =>
    have hrest := ih m (fun k hk => h k (List.mem_cons_of_mem n hk)) (List.cons_ne_nil m names)
    rw [List.intercalate_cons_cons, List.append_assoc, List.singleton_append, parts_word (h n List.mem_cons_self), hrest,
      List.nil_append]

lemma joinNames_all {names : List Name} (h : ['*'] ∈ names) (screens : Name) :
    ScreenSet.joinNames screens names = ['*'] := by
  induction names generalizing screens with
  | nil => nomatch h
  | cons n names ih =>
    rw [ScreenSet.joinNames]
    split_ifs with hall
    · rfl
    · exact ih ((List.mem_cons.mp h).resolve_left (Ne.symm hall)) _
    · exact ih ((List.mem_cons.mp h).resolve_left (Ne.symm hall)) _

lemma joinNames_behind {names : List Name} (h : ['*'] ∉ names) {screens : Name} (hne : screens ≠ []) :
    ScreenSet.joinNames screens names = screens ++ names.flatMap fun n => n ++ [':'] := by
  induction names generalizing screens with
  | nil => simp [ScreenSet.joinNames]
  | cons n names ih =>
    have hn : n ≠ ['*'] := fun heq => h (heq ▸ List.mem_cons_self)
    rw [ScreenSet.joinNames, if_neg hn, if_neg hne, ih (fun hmem => h (List.mem_cons_of_mem n hmem)) (by simp [hne])]
    simp

lemma joinNames_colonText {names : List Name} (h : ['*'] ∉ names) (hne : names ≠ []) :
    ScreenSet.joinNames [] names = colonText names := by
  obtain ⟨n, names, rfl⟩ := List.exists_cons_of_ne_nil hne
  have hn : n ≠ ['*'] := fun heq => h (heq ▸ List.mem_cons_self)
  rw [ScreenSet.joinNames, if_neg hn, if_pos rfl,
    joinNames_behind (fun hmem => h (List.mem_cons_of_mem n hmem)) (by simp)]
  simp [colonText]

end Lists

namespace Config

variable {c : Config}

lemma parseScreens_eq (part text : Name) (screens : ScreenSet) :
    c.parseScreens part screens text = (parts part text).foldlM c.addNamed screens := by
  induction text generalizing part screens with
  | nil => simp [parseScreens, parts]
  | cons ch text ih =>
    rw [parseScreens, parts]
    split_ifs
    · rw [List.foldlM_cons]
      congr 1
      funext screens'
      exact ih [] screens'
    · exact ih _ screens

lemma StoredInv.canonical (hinv : c.StoredInv) {n : Name} (h : n ∈ c.canonicalNames) :
    (n ≠ [] ∧ ∀ ch ∈ n, isNameChar ch = true) ∧ c.isScreen n = true ∧ c.getCanonicalName n ≠ [] ∧
      c.getCanonicalName (c.getCanonicalName n) = c.getCanonicalName n := by
  obtain ⟨e, he, rfl⟩ := List.mem_map.mp h
  obtain ⟨key, hkey, hsame⟩ := contains_iff_key.mp (hinv.known e he)
  have hstored := hinv.stored key hkey
  obtain ⟨hne, hchars⟩ := isNameChar_of_valid (hinv.validNames _ hstored)
  have hfind : c.nameToCanonicalName.find? e.2 = some key := OrdMap.find?_eq_some.mpr ⟨key, hsame, hstored⟩
  have hcanonical : c.getCanonicalName e.2 = key := by rw [getCanonicalName, hfind]; rfl
  refine ⟨⟨?_, nameChars_caseless hsame.symm hchars⟩, ?_, ?_, ?_⟩
  · intro hnil
    rw [hnil] at hsame
    exact hne (List.map_eq_nil_iff.mp hsame)
  · rw [isScreen, OrdMap.contains, hfind]
    rfl
  · rwa [hcanonical]
  · rw [hcanonical]
    exact (getCanonicalName_of_mem hstored).2

lemma StoredInv.screenName (hinv : c.StoredInv) {n : Name} (h : c.isScreen n = true) :
    n ≠ [] ∧ (∀ ch ∈ n, isNameChar ch = true) ∧ c.getCanonicalName n ≠ [] := by
  obtain ⟨stored, hsame, hmem⟩ := mem_of_isScreen h
  obtain ⟨hne, hchars⟩ := isNameChar_of_valid (hinv.validNames _ hmem)
  have hcanonical : c.getCanonicalName n ∈ c.canonicalNames := List.mem_map.mpr ⟨_, hmem, rfl⟩
  refine ⟨?_, nameChars_caseless hsame.symm hchars, (hinv.canonical hcanonical).1.1⟩
  rintro rfl
  exact hne (List.map_eq_nil_iff.mp hsame)

lemma StoredInv.listScreen (hinv : c.StoredInv) {n : Name} (h : c.isScreen n = true) : ':' ∉ n ∧ n ≠ [] ∧ n ≠ ['*'] := by
  obtain ⟨hne, hchars, -⟩ := hinv.screenName h
  refine ⟨fun hmem => absurd (hchars _ hmem) (by decide), hne, ?_⟩
  rintro rfl
  exact absurd (hchars '*' List.mem_cons_self) (by decide)

lemma StoredInv.listName (hinv : c.StoredInv) {n : Name} (h : n ∈ c.canonicalNames) : ':' ∉ n ∧ n ≠ [] ∧ n ≠ ['*'] :=
  hinv.listScreen (hinv.canonical h).2.1

lemma StoredInv.addNamed (hinv : c.StoredInv) {n : Name} (h : c.isScreen n = true) (screens : ScreenSet) :
    c.addNamed screens n = .ok (screens.insert (c.getCanonicalName n) ()) := by
  obtain ⟨hne, hchars, hcanonical⟩ := hinv.screenName h
  have hblank : ∀ ch ∈ n, isBlank ch = false := fun ch hch =>
    isBlank_of_isGraph (isWordChar_iff (isWordChar_of_isNameChar (hchars ch hch))).1
  have hraw : (n.dropWhile isBlank).rdropWhile isBlank = n := by
    rw [dropWhile_head fun ch hch => hblank ch (List.mem_of_mem_head? hch),
      rdropWhile_last fun ch hch => hblank ch (List.mem_of_mem_getLast? hch)]
  rw [Config.addNamed, hraw, if_neg (hinv.listScreen h).2.2, if_neg hne, if_neg hcanonical]

def collect (c : Config) (screens : ScreenSet) (names : List Name) : ScreenSet :=
  names.foldl (fun screens n => screens.insert (c.getCanonicalName n) ()) screens

lemma StoredInv.foldlM_addNamed (hinv : c.StoredInv) {names : List Name} (h : ∀ n ∈ names, c.isScreen n = true)
    (screens : ScreenSet) : names.foldlM c.addNamed screens = .ok (c.collect screens names) := by
  induction names generalizing screens with
  | nil => rfl
  | cons n names ih =>
    rw [List.foldlM_cons, hinv.addNamed (h n List.mem_cons_self)]
    exact ih (fun m hm => h m (List.mem_cons_of_mem n hm)) _

lemma StoredInv.parseScreens_colonText (hinv : c.StoredInv) {names : List Name} (h : ∀ n ∈ names, n ∈ c.canonicalNames) :
    c.parseScreens [] .empty (colonText names) = .ok (c.collect .empty names) := by
  have hempty (screens : ScreenSet) : c.addNamed screens [] = .ok screens := rfl
  rw [parseScreens_eq, parts_colonText fun n hn => (hinv.listName (h n hn)).1, List.foldlM_cons, hempty]
  change (names ++ [[]]).foldlM c.addNamed .empty = _
  rw [List.foldlM_append, hinv.foldlM_addNamed fun n hn => (hinv.canonical (h n hn)).2.1]
  rfl

lemma StoredInv.parseScreens_inner (hinv : c.StoredInv) {names : List Name} (h : ∀ n ∈ names, n ∈ c.canonicalNames)
    (hne : names ≠ []) :
    c.parseScreens [] .empty (colonText names).tail.dropLast = .ok (c.collect .empty names) := by
  rw [parseScreens_eq, parts_inner (fun n hn => (hinv.listName (h n hn)).1) hne,
    hinv.foldlM_addNamed fun n hn => (hinv.canonical (h n hn)).2.1]

lemma StoredInv.parseScreens_intercalate (hinv : c.StoredInv) {names : List Name} (h : ∀ n ∈ names, c.isScreen n = true)
    (hne : names ≠ []) : c.parseScreens [] .empty ([':'].intercalate names) = .ok (c.collect .empty names) := by
  rw [parseScreens_eq, parts_intercalate (fun n hn => (hinv.listScreen (h n hn)).1) hne, hinv.foldlM_addNamed h]

def rereadScreens (c : Config) (screens : Name) : Name :=
  if screens = ['*'] then ['*'] else (c.collect .empty (listed screens)).join

lemma ruleScreens_cases {screens : Name} (h : c.RuleScreens screens) :
    screens = [] ∨ screens = ['*'] ∨ ∃ names : List Name, names ≠ [] ∧ screens = colonText names ∧
      names.Pairwise (· < ·) ∧ ∀ n ∈ names, n ∈ c.canonicalNames := by
  obtain ⟨set, rfl, hnames⟩ := h
  by_cases hall : ['*'] ∈ set.entries.map Prod.fst
  · exact .inr (.inl (joinNames_all hall _))
  · have hcanonical : ∀ n ∈ set.entries.map Prod.fst, n ∈ c.canonicalNames := by
      intro n hn
      obtain ⟨e, he, rfl⟩ := List.mem_map.mp hn
      exact (hnames e he).resolve_left fun heq => hall (heq ▸ hn)
    by_cases hnil : set.entries.map Prod.fst = []
    · left
      rw [ScreenSet.join, hnil]
      rfl
    · exact .inr (.inr ⟨_, hnil, joinNames_colonText hall hnil, List.pairwise_map.mpr set.sorted, hcanonical⟩)

lemma mem_collect {names : List Name} {screens : ScreenSet} {e : Name × Unit} (h : e ∈ (c.collect screens names).entries) :
    e ∈ screens.entries ∨ ∃ n ∈ names, e.1 = c.getCanonicalName n := by
  induction names generalizing screens with
  | nil => exact .inl h
  | cons n names ih =>
    rcases ih h with hmem | ⟨m, hm, heq⟩
    · rcases OrdMap.mem_insertEntry hmem with rfl | hmem
      · exact .inr ⟨n, List.mem_cons_self, rfl⟩
      · exact .inl hmem
    · exact .inr ⟨m, List.mem_cons_of_mem n hm, heq⟩

lemma contains_collect {names : List Name} {screens : ScreenSet} {m : Name}
    (h : screens.contains m = true ∨ ∃ n ∈ names, c.getCanonicalName n = m) : (c.collect screens names).contains m = true := by
  induction names generalizing screens with
  | nil =>
    rcases h with h | ⟨n, hn, -⟩
    · exact h
    · nomatch hn
  | cons n names ih =>
    apply ih
    rcases h with h | ⟨k, hk, hm⟩
    · exact .inl (OrdMap.contains_insert.mpr (.inr h))
    · rcases List.mem_cons.mp hk with rfl | hk
      · exact .inl (OrdMap.contains_insert.mpr (.inl hm))
      · exact .inr ⟨k, hk, hm⟩

lemma collect_eq {names : List Name} (hsorted : names.Pairwise (· < ·)) (h : ∀ n ∈ names, c.getCanonicalName n = n) :
    (c.collect .empty names).entries.map Prod.fst = names := by
  have hfold (screens : ScreenSet) : c.collect screens names =
      (names.map fun n => (n, ())).foldl (fun m e => m.insert e.1 e.2) screens := by
    rw [List.foldl_map, collect]
    apply List.foldl_ext
    intro set n hn
    rw [h n hn]
  have hentries : (c.collect .empty names).entries = names.map fun n => (n, ()) := by
    rw [hfold]
    exact OrdMap.foldl_insert .empty (List.pairwise_map.mpr hsorted)
  rw [hentries, List.map_map]
  exact List.map_id names

lemma StoredInv.rereadScreens_eq_iff (hinv : c.StoredInv) {screens : Name} (h : c.RuleScreens screens) :
    c.rereadScreens screens = screens ↔ ∀ n ∈ listed screens, c.getCanonicalName n = n := by
  rcases ruleScreens_cases h with rfl | rfl | ⟨names, hne, rfl, hsorted, hnames⟩
  · exact iff_of_true rfl (by intro n hn; nomatch hn)
  · exact iff_of_true rfl (by intro n hn; nomatch hn)
  · have hlisted : listed (colonText names) = names := listed_colonText fun n hn => hinv.listName (hnames n hn)
    have hall : colonText names ≠ ['*'] := fun heq => absurd (List.cons.inj heq).1 (by decide)
    have hcollect : ∀ n ∈ (c.collect .empty names).entries.map Prod.fst, ∃ m ∈ names, n = c.getCanonicalName m := by
      intro n hn
      obtain ⟨e, he, rfl⟩ := List.mem_map.mp hn
      exact (mem_collect he).resolve_left (by intro hmem; nomatch hmem)
    have hcanonical : ∀ n ∈ (c.collect .empty names).entries.map Prod.fst, n ∈ c.canonicalNames := by
      intro n hn
      obtain ⟨m, hm, rfl⟩ := hcollect n hn
      exact mem_canonicalNames (hinv.canonical (hnames m hm)).2.2.1
    have hjoin : (c.collect .empty names).join = colonText ((c.collect .empty names).entries.map Prod.fst) := by
      apply joinNames_colonText
      · intro hmem
        exact (hinv.listName (hcanonical _ hmem)).2.2 rfl
      · obtain ⟨n, t, rfl⟩ := List.exists_cons_of_ne_nil hne
        obtain ⟨e, he, -⟩ := OrdMap.contains_iff.mp
          (contains_collect (.inr ⟨n, List.mem_cons_self, rfl⟩) :
            (c.collect .empty (n :: t)).contains (c.getCanonicalName n) = true)
        exact List.ne_nil_of_mem (List.mem_map_of_mem he)
    rw [rereadScreens, if_neg hall, hlisted, hjoin]
    constructor
    · intro heq n hn
      have hsame := colonText_inj (fun m hm => (hinv.listName (hcanonical m hm)).1)
        (fun m hm => (hinv.listName (hnames m hm)).1) heq
      obtain ⟨m, hm, rfl⟩ := hcollect n (by rwa [hsame])
      exact (hinv.canonical (hnames m hm)).2.2.2
    · intro hown
      rw [collect_eq hsorted hown]

lemma StoredInv.parseScreens_reread (hinv : c.StoredInv) {screens : Name} (h : c.RuleScreens screens) :
    ∃ set : ScreenSet, c.parseScreens [] .empty screens = .ok set ∧ set.join = c.rereadScreens screens := by
  rcases ruleScreens_cases h with rfl | rfl | ⟨names, -, rfl, -, hnames⟩
  · exact ⟨_, rfl, rfl⟩
  · exact ⟨_, rfl, rfl⟩
  · have hlisted : listed (colonText names) = names := listed_colonText fun n hn => hinv.listName (hnames n hn)
    have hall : colonText names ≠ ['*'] := fun heq => absurd (List.cons.inj heq).1 (by decide)
    refine ⟨_, hinv.parseScreens_colonText hnames, ?_⟩
    rw [rereadScreens, if_neg hall, hlisted]

lemma StoredInv.screenArg (hinv : c.StoredInv) {screen : Name} (h : c.RuleName screen) (error : Name → String) :
    c.screenArg error screen = .ok (c.getCanonicalName screen) := by
  rw [Config.screenArg, if_pos (hinv.canonical h).2.1]

end Config

section Reread

def Condition.readBack (c : Config) : Condition → Option Condition
  | keystroke key mask => (rereadKey key mask).map fun k => keystroke k.1 k.2
  | mouseButton button mask => some (mouseButton button mask)
  | screenConnected screen => some (screenConnected (c.getCanonicalName screen))

/-- What is read from the whole text of an action. A broadcast to all screens is written without a list. -/
def Action.readBack (c : Config) : Action → Option Action
  | switchToScreen screen => some (switchToScreen (c.getCanonicalName screen))
  | keyboardBroadcast mode screens =>
    some (keyboardBroadcast mode (if screens = ['*'] then [] else c.rereadScreens screens))
  | keystroke key mask screens press =>
    (rereadKey key mask).map fun k => keystroke k.1 k.2 (c.rereadScreens screens) press
  | a => some a

def Condition.call : Condition → String × List Name
  | keystroke key mask => ("keystroke", [KeyNames.formatKey key mask])
  | mouseButton button mask => ("mousebutton", [formatButton button mask])
  | screenConnected screen => ("connect", [screen])

def keystrokeTexts (key : KeyID) (mask : KeyModifierMask) (screens : Name) : List Name :=
  if screens = [] then [KeyNames.formatKey key mask] else [KeyNames.formatKey key mask, screens]

def broadcastTexts (mode : LockState) (screens : Name) : List Name :=
  if screens = [] ∨ screens.head? = some '*' then [formatMode mode] else [formatMode mode, screens.tail.dropLast]

def Action.call : Action → String × List Name
  | lockCursorToScreen mode => ("lockCursorToScreen", [formatMode mode])
  | switchToScreen screen => ("switchToScreen", [screen])
  | toggleScreen => ("toggleScreen", [])
  | switchInDirection dir => ("switchInDirection", [dirName dir])
  | keyboardBroadcast mode screens => ("keyboardBroadcast", broadcastTexts mode screens)
  | keystroke key mask screens press => (if press then "keyDown" else "keyUp", keystrokeTexts key mask screens)
  | mouseButton button mask press => (if press then "mouseDown" else "mouseUp", [formatButton button mask])

def callText (call : String × List Name) : Name := call.1.toList ++ argsText call.2

lemma formatCall_eq (name : String) (arg : Name) : formatCall name arg = sprintf (callText (name, [arg])) := by
  simp [formatCall, callText, argsText]

lemma formatCall_pair (name : String) (arg arg' : Name) :
    formatCall name (arg ++ ',' :: arg') = sprintf (callText (name, [arg, arg'])) := by
  simp [formatCall, callText, argsText]

lemma Condition.format_eq (condition : Condition) : condition.format = sprintf (callText condition.call) := by
  cases condition with
  | keystroke key mask => exact formatCall_eq "keystroke" (KeyNames.formatKey key mask)
  | mouseButton button mask => exact formatCall_eq "mousebutton" (formatButton button mask)
  | screenConnected screen => exact formatCall_eq "connect" screen

lemma Action.format_eq (a : Action) : a.format = sprintf (callText a.call) := by
  cases a with
  | lockCursorToScreen mode => exact formatCall_eq "lockCursorToScreen" (formatMode mode)
  | switchToScreen screen => exact formatCall_eq "switchToScreen" screen
  | toggleScreen => exact congrArg sprintf (List.append_nil "toggleScreen".toList).symm
  | switchInDirection dir => exact formatCall_eq "switchInDirection" (dirName dir)
  | keyboardBroadcast mode screens =>
    have htexts : formatCall "keyboardBroadcast" (if screens = [] ∨ screens.head? = some '*' then formatMode mode
        else formatMode mode ++ ',' :: screens.tail.dropLast) =
        sprintf (callText ("keyboardBroadcast", broadcastTexts mode screens)) := by
      rw [broadcastTexts]
      split_ifs
      · exact formatCall_eq "keyboardBroadcast" _
      · exact formatCall_pair "keyboardBroadcast" _ _
    exact htexts
  | keystroke key mask screens press =>
    have htexts (name : String) : formatCall name (if screens = [] then KeyNames.formatKey key mask
        else KeyNames.formatKey key mask ++ ',' :: screens) =
        sprintf (callText (name, keystrokeTexts key mask screens)) := by
      rw [keystrokeTexts]
      split_ifs
      · exact formatCall_eq name _
      · exact formatCall_pair name _ _
    exact htexts (if press then "keyDown" else "keyUp")
  | mouseButton button mask press => exact formatCall_eq (if press then "mouseDown" else "mouseUp") (formatButton button mask)

variable {c : Config}

lemma parseMode_formatMode (mode : LockState) : Config.parseMode (formatMode mode) = some mode := by
  cases mode <;> decide

lemma keystrokeArgs_reread (hinv : c.StoredInv) {key : KeyID} {mask : KeyModifierMask} {screens : Name}
    (h : ValidKeystroke key mask) (hscreens : c.RuleScreens screens) :
    (c.keystrokeArgs (keystrokeTexts key mask screens)).toOption =
      (rereadKey key mask).map fun k => (k.1, k.2, c.rereadScreens screens) := by
  have hkey := parseKeystroke_format h
  rw [keystrokeTexts]
  split_ifs with hnil
  · subst hnil
    rw [Config.keystrokeArgs, toOption_bind, hkey]
    cases rereadKey key mask with
    | none => rfl
    | some k => rfl
  · obtain ⟨set, hparse, hjoin⟩ := hinv.parseScreens_reread hscreens
    rw [Config.keystrokeArgs, hparse]
    change (parseKeystroke (KeyNames.formatKey key mask) >>= _).toOption = _
    rw [toOption_bind, hkey, ← hjoin]
    cases rereadKey key mask with
    | none => rfl
    | some k => rfl

lemma broadcastArgs_reread (hinv : c.StoredInv) (mode : LockState) {screens : Name} (h : c.RuleScreens screens) :
    c.broadcastArgs (broadcastTexts mode screens) =
      .ok (mode, if screens = ['*'] then [] else c.rereadScreens screens) := by
  have hone : c.broadcastArgs [formatMode mode] = .ok (mode, []) := by
    unfold Config.broadcastArgs
    dsimp only
    rw [parseMode_formatMode]
    rfl
  rcases Config.ruleScreens_cases h with rfl | rfl | ⟨names, hne, rfl, -, hnames⟩
  · exact hone
  · exact hone
  · have hlisted : listed (colonText names) = names := listed_colonText fun n hn => hinv.listName (hnames n hn)
    have hall : colonText names ≠ ['*'] := fun heq => absurd (List.cons.inj heq).1 (by decide)
    have hlist : ¬ (colonText names = [] ∨ (colonText names).head? = some '*') := by
      rintro (hnil | hhead)
      · nomatch hnil
      · exact absurd (Option.some.inj hhead) (by decide)
    rw [broadcastTexts, if_neg hlist, if_neg hall]
    unfold Config.broadcastArgs
    dsimp only
    rw [parseMode_formatMode]
    dsimp only
    rw [hinv.parseScreens_inner hnames hne, Config.rereadScreens, if_neg hall, hlisted]
    rfl

lemma parseCondition_reread (hinv : c.StoredInv) {condition : Condition} (h : condition.Stored c) :
    (c.parseCondition condition.call.1.toList condition.call.2).toOption = condition.readBack c := by
  cases condition with
  | keystroke key mask =>
    change (c.parseCondition "keystroke".toList [KeyNames.formatKey key mask]).toOption = _
    unfold Config.parseCondition
    rw [if_pos rfl]
    dsimp only
    rw [toOption_bind, parseKeystroke_format h, Condition.readBack]
    cases rereadKey key mask with
    | none => rfl
    | some k => rfl
  | mouseButton button mask =>
    change (c.parseCondition "mousebutton".toList [formatButton button mask]).toOption = _
    unfold Config.parseCondition
    rw [if_neg (by decide), if_pos rfl]
    dsimp only
    rw [parseMouse_format h]
    rfl
  | screenConnected screen =>
    change (c.parseCondition "connect".toList [screen]).toOption = _
    unfold Config.parseCondition
    rw [if_neg (by decide), if_neg (by decide), if_pos rfl]
    dsimp only
    rw [hinv.screenArg h]
    rfl

lemma parseAction_reread (hinv : c.StoredInv) {a : Action} (h : a.Stored c) (r : Rule) (activate : Bool) :
    (c.parseAction r activate a.call.1.toList a.call.2).toOption =
      (a.readBack c).map fun a => r.adoptAction a activate := by
  cases a with
  | lockCursorToScreen mode =>
    have hmode : Config.lockArgs [formatMode mode] = .ok mode := by
      rw [Config.lockArgs, parseMode_formatMode]
    change (c.parseAction r activate "lockCursorToScreen".toList [formatMode mode]).toOption = _
    unfold Config.parseAction
    iterate 9 rw [if_neg (by decide)]
    rw [if_pos rfl, hmode]
    rfl
  | switchToScreen screen =>
    change (c.parseAction r activate "switchToScreen".toList [screen]).toOption = _
    unfold Config.parseAction
    iterate 6 rw [if_neg (by decide)]
    rw [if_pos rfl]
    dsimp only
    rw [hinv.screenArg h]
    rfl
  | toggleScreen =>
    change (c.parseAction r activate "toggleScreen".toList []).toOption = _
    unfold Config.parseAction
    iterate 7 rw [if_neg (by decide)]
    rw [if_pos rfl]
    rfl
  | switchInDirection dir =>
    change (c.parseAction r activate "switchInDirection".toList [dirName dir]).toOption = _
    unfold Config.parseAction
    iterate 8 rw [if_neg (by decide)]
    rw [if_pos rfl]
    dsimp only
    rw [(dirName_word h).2.2]
    rfl
  | keyboardBroadcast mode screens =>
    change (c.parseAction r activate "keyboardBroadcast".toList (broadcastTexts mode screens)).toOption = _
    unfold Config.parseAction
    iterate 10 rw [if_neg (by decide)]
    rw [if_pos rfl, broadcastArgs_reread hinv mode h]
    rfl
  | keystroke key mask screens press =>
    have hargs := keystrokeArgs_reread hinv h.1 h.2
    cases press with
    | true =>
      change (c.parseAction r activate "keyDown".toList (keystrokeTexts key mask screens)).toOption = _
      unfold Config.parseAction
      rw [if_neg (by decide), if_pos rfl, toOption_bind, hargs, Action.readBack]
      cases rereadKey key mask with
      | none => rfl
      | some k => rfl
    | false =>
      change (c.parseAction r activate "keyUp".toList (keystrokeTexts key mask screens)).toOption = _
      unfold Config.parseAction
      rw [if_neg (by decide), if_neg (by decide), if_pos rfl, toOption_bind, hargs, Action.readBack]
      cases rereadKey key mask with
      | none => rfl
      | some k => rfl
  | mouseButton button mask press =>
    have hargs : Config.mouseArgs [formatButton button mask] = .ok (button, mask) := parseMouse_format h
    cases press with
    | true =>
      change (c.parseAction r activate "mouseDown".toList [formatButton button mask]).toOption = _
      unfold Config.parseAction
      iterate 4 rw [if_neg (by decide)]
      rw [if_pos rfl, hargs]
      rfl
    | false =>
      change (c.parseAction r activate "mouseUp".toList [formatButton button mask]).toOption = _
      unfold Config.parseAction
      iterate 5 rw [if_neg (by decide)]
      rw [if_pos rfl, hargs]
      rfl

end Reread

section Texts

def isRuleChar (ch : Char) : Bool := isGraph ch && isArgChar ch && ch != '#'

lemma isRuleChar_iff {ch : Char} : isRuleChar ch = true ↔ isGraph ch = true ∧ isArgChar ch = true ∧ ch ≠ '#' := by
  rw [isRuleChar, Bool.and_eq_true, Bool.and_eq_true, bne_iff_ne, and_assoc]

lemma isRuleChar_of_ge {ch : Char} (h : 45 ≤ ch.toNat ∧ ch.toNat ≤ 126) : isRuleChar ch = true := by
  have hne {d : Char} (hd : d.toNat < 45) : ch ≠ d := by
    rintro rfl
    omega
  rw [isRuleChar_iff]
  refine ⟨decide_eq_true (by omega), ?_, hne (by decide)⟩
  simp [isArgChar, hne (d := ',') (by decide), hne (d := ')') (by decide)]

lemma isRuleChar_of_isNameChar {ch : Char} (h : isNameChar ch = true) : isRuleChar ch = true := by
  have := isNameChar_iff.mp h
  exact isRuleChar_of_ge (by omega)

lemma isRuleChar_of_key {ch : Char} (h : KeyNames.isPartChar ch = true ∨ ch = '+') : isRuleChar ch = true := by
  rcases h with h | rfl
  · rw [KeyNames.isPartChar, Bool.or_eq_true, KeyNames.isKeyChar_iff, beq_iff_eq, ← Char.toNat_inj] at h
    simp only [Char.reduceToNat] at h
    exact isRuleChar_of_ge (by omega)
  · rfl

variable {c : Config}

lemma formatButton_chars {button : ButtonID} {mask : KeyModifierMask} (h : ValidButton button mask) :
    ∀ ch ∈ formatButton button mask, isRuleChar ch = true := by
  intro ch hch
  rw [formatButton_eq h.named] at hch
  rcases List.mem_append.mp hch with hch | hch
  · exact isRuleChar_of_key (KeyNames.modifiersText_chars KeyNames.bits_lt ch hch)
  · have := of_decide_eq_true (isDigit_toDigits hch)
    exact isRuleChar_of_ge (by omega)

lemma formatKey_ruleChars {key : KeyID} {mask : KeyModifierMask} (h : ValidKeystroke key mask) :
    ∀ ch ∈ KeyNames.formatKey key mask, isRuleChar ch = true := fun ch hch =>
  isRuleChar_of_key (KeyNames.formatKey_chars h.named key ch hch)

lemma ruleName_chars (hinv : c.StoredInv) {screen : Name} (h : c.RuleName screen) :
    ∀ ch ∈ screen, isRuleChar ch = true := by
  intro ch hch
  exact isRuleChar_of_isNameChar ((hinv.canonical h).1.2 ch hch)

lemma ruleScreens_chars (hinv : c.StoredInv) {screens : Name} (h : c.RuleScreens screens) :
    ∀ ch ∈ screens, isRuleChar ch = true := by
  intro ch hch
  rcases Config.ruleScreens_cases h with rfl | rfl | ⟨names, -, rfl, -, hnames⟩
  · nomatch hch
  · rw [List.mem_singleton.mp hch]
    rfl
  · rcases List.mem_cons.mp hch with rfl | hch
    · rfl
    · obtain ⟨n, hn, hch⟩ := List.mem_flatMap.mp hch
      rcases List.mem_append.mp hch with hch | hch
      · exact ruleName_chars hinv (hnames n hn) ch hch
      · rw [List.mem_singleton.mp hch]
        rfl

lemma formatMode_chars (mode : LockState) : ∀ ch ∈ formatMode mode, isRuleChar ch = true := by
  cases mode <;> decide

lemma dirName_chars (dir : Direction) : ∀ ch ∈ dirName dir, isRuleChar ch = true := by
  cases dir <;> decide

lemma intercalate_chars {p : Char → Prop} {args : List Name} (hcomma : p ',') (h : ∀ arg ∈ args, ∀ ch ∈ arg, p ch) :
    ∀ ch ∈ [','].intercalate args, p ch := by
  induction args with
  | nil => exact fun _ hch => nomatch hch
  | cons arg args ih =>
    have hrest := ih fun a ha => h a (List.mem_cons_of_mem arg ha)
    cases args with
    | nil =>
      rw [List.intercalate_singleton]
      exact h arg List.mem_cons_self
    | cons arg' args =>
      rw [List.intercalate_cons_cons]
      simp only [List.forall_mem_append, List.forall_mem_singleton]
      exact ⟨⟨h arg List.mem_cons_self, hcomma⟩, hrest⟩

/-- A call that can be read: a word, and arguments without brackets and commas, the last of which is not empty. -/
structure ReadableCall (call : String × List Name) : Prop where
  nonempty : call.1.toList ≠ []
  word : ∀ ch ∈ call.1.toList, isWordChar ch = true
  args : ∀ arg ∈ call.2, ∀ ch ∈ arg, isRuleChar ch = true
  last : call.2.getLast? ≠ some []

section Last

lemma formatKey_ne_nil {key : KeyID} {mask : KeyModifierMask} (h : ValidKeystroke key mask) :
    KeyNames.formatKey key mask ≠ [] := by
  by_cases hkey : key = KeyNames.kKeyNone
  · subst hkey
    have hmask := h.nonempty.resolve_left (not_not.mpr rfl)
    intro hnil
    have hparse := KeyNames.parseModifiers_formatMask h.named hmask
    rw [hnil] at hparse
    exact hmask (Prod.mk.inj (Option.some.inj hparse)).1.symm
  · rw [KeyNames.formatKey_eq h.named, if_pos hkey]
    exact List.append_ne_nil_of_right_ne_nil _ (KeyNames.formatKeyName_parts key).1

lemma formatButton_ne_nil {button : ButtonID} {mask : KeyModifierMask} (h : ValidButton button mask) :
    formatButton button mask ≠ [] := by
  rw [formatButton_eq h.named]
  exact List.append_ne_nil_of_right_ne_nil _ Nat.toDigits_ne_nil

lemma formatMode_ne_nil (mode : LockState) : formatMode mode ≠ [] := by
  cases mode <;> decide

lemma last_ne {arg : Name} (h : arg ≠ []) : [arg].getLast? ≠ some [] := fun hnil => h (Option.some.inj hnil)

lemma keystrokeTexts_last {key : KeyID} {mask : KeyModifierMask} (h : ValidKeystroke key mask) (screens : Name) :
    (keystrokeTexts key mask screens).getLast? ≠ some [] := by
  rw [keystrokeTexts]
  split_ifs with hnil
  · exact last_ne (formatKey_ne_nil h)
  · exact last_ne hnil

lemma broadcastTexts_last (hinv : c.StoredInv) (mode : LockState) {screens : Name} (h : c.RuleScreens screens) :
    (broadcastTexts mode screens).getLast? ≠ some [] := by
  rcases Config.ruleScreens_cases h with rfl | rfl | ⟨names, hne, rfl, -, hnames⟩
  · exact last_ne (formatMode_ne_nil mode)
  · exact last_ne (formatMode_ne_nil mode)
  · have hhead : (colonText names).head? ≠ some '*' := fun h => absurd (Option.some.inj h) (by decide)
    have hlist : ¬ (colonText names = [] ∨ (colonText names).head? = some '*') := not_or.mpr ⟨List.cons_ne_nil _ _, hhead⟩
    have hinner : (colonText names).tail.dropLast ≠ [] := by
      intro hnil
      have hparts := parts_inner (fun n hn => (hinv.listName (hnames n hn)).1) hne
      rw [hnil] at hparts
      exact (hinv.listName (hnames [] (hparts ▸ List.mem_cons_self))).2.1 rfl
    rw [broadcastTexts, if_neg hlist]
    exact last_ne hinner

end Last

lemma Condition.Stored.readableCall (hinv : c.StoredInv) {condition : Condition} (h : condition.Stored c) :
    ReadableCall condition.call := by
  have hone {arg : Name} (h : ∀ ch ∈ arg, isRuleChar ch = true) : ∀ a ∈ [arg], ∀ ch ∈ a, isRuleChar ch = true := by
    intro a ha
    rwa [List.mem_singleton.mp ha]
  cases condition with
  | keystroke key mask =>
    have hne : "keystroke".toList ≠ [] ∧ ∀ ch ∈ "keystroke".toList, isWordChar ch = true := ⟨by decide, by decide⟩
    exact ⟨hne.1, hne.2, hone (formatKey_ruleChars h), last_ne (formatKey_ne_nil h)⟩
  | mouseButton button mask =>
    have hne : "mousebutton".toList ≠ [] ∧ ∀ ch ∈ "mousebutton".toList, isWordChar ch = true := ⟨by decide, by decide⟩
    exact ⟨hne.1, hne.2, hone (formatButton_chars h), last_ne (formatButton_ne_nil h)⟩
  | screenConnected screen =>
    have hne : "connect".toList ≠ [] ∧ ∀ ch ∈ "connect".toList, isWordChar ch = true := ⟨by decide, by decide⟩
    exact ⟨hne.1, hne.2, hone (ruleName_chars hinv h), last_ne (hinv.canonical h).1.1⟩

lemma keystrokeTexts_chars (hinv : c.StoredInv) {key : KeyID} {mask : KeyModifierMask} {screens : Name}
    (h : ValidKeystroke key mask) (hscreens : c.RuleScreens screens) :
    ∀ arg ∈ keystrokeTexts key mask screens, ∀ ch ∈ arg, isRuleChar ch = true := by
  intro arg harg
  rw [keystrokeTexts] at harg
  split_ifs at harg
  · rw [List.mem_singleton.mp harg]
    exact formatKey_ruleChars h
  · rcases List.mem_cons.mp harg with rfl | harg
    · exact formatKey_ruleChars h
    · rw [List.mem_singleton.mp harg]
      exact ruleScreens_chars hinv hscreens

lemma broadcastTexts_chars (hinv : c.StoredInv) (mode : LockState) {screens : Name} (h : c.RuleScreens screens) :
    ∀ arg ∈ broadcastTexts mode screens, ∀ ch ∈ arg, isRuleChar ch = true := by
  intro arg harg
  rw [broadcastTexts] at harg
  split_ifs at harg
  · rw [List.mem_singleton.mp harg]
    exact formatMode_chars mode
  · rcases List.mem_cons.mp harg with rfl | harg
    · exact formatMode_chars mode
    · rw [List.mem_singleton.mp harg]
      intro ch hch
      exact ruleScreens_chars hinv h ch (List.mem_of_mem_tail (List.dropLast_subset _ hch))

def actionWords : List String := ["lockCursorToScreen", "switchToScreen", "toggleScreen", "switchInDirection",
  "keyboardBroadcast", "keyDown", "keyUp", "mouseDown", "mouseUp"]

lemma actionWords_checked : ∀ word ∈ actionWords, isOptionWord word = true := by
  decide +kernel

lemma Action.call_word (a : Action) : a.call.1 ∈ actionWords := by
  cases a with
  | keystroke key mask screens press => cases press <;> simp [call, actionWords]
  | mouseButton button mask press => cases press <;> simp [call, actionWords]
  | _ => simp [call, actionWords]

lemma Action.Stored.readableCall (hinv : c.StoredInv) {a : Action} (h : a.Stored c) : ReadableCall a.call := by
  obtain ⟨hne, hword⟩ := isOptionWord_iff (actionWords_checked _ a.call_word)
  have hone {arg : Name} (h : ∀ ch ∈ arg, isRuleChar ch = true) : ∀ a ∈ [arg], ∀ ch ∈ a, isRuleChar ch = true := by
    intro a ha
    rwa [List.mem_singleton.mp ha]
  have hargs : (∀ arg ∈ a.call.2, ∀ ch ∈ arg, isRuleChar ch = true) ∧ a.call.2.getLast? ≠ some [] := by
    cases a with
    | lockCursorToScreen mode => exact ⟨hone (formatMode_chars mode), last_ne (formatMode_ne_nil mode)⟩
    | switchToScreen screen => exact ⟨hone (ruleName_chars hinv h), last_ne (hinv.canonical h).1.1⟩
    | toggleScreen => exact ⟨List.forall_mem_nil _, Option.some_ne_none _ ∘ Eq.symm⟩
    | switchInDirection dir =>
      have hdir : dirName dir ≠ [] := by
        cases dir with
        | noDirection => exact absurd rfl h
        | left | right | top | bottom => decide
      exact ⟨hone (dirName_chars dir), last_ne hdir⟩
    | keyboardBroadcast mode screens => exact ⟨broadcastTexts_chars hinv mode h, broadcastTexts_last hinv mode h⟩
    | keystroke key mask screens press =>
      exact ⟨keystrokeTexts_chars hinv h.1 h.2, keystrokeTexts_last h.1 screens⟩
    | mouseButton button mask press => exact ⟨hone (formatButton_chars h), last_ne (formatButton_ne_nil h)⟩
  exact ⟨hne, hword, hargs.1, hargs.2⟩

end Texts

end InputLeap
