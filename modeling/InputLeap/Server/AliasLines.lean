import InputLeap.Server.ScreenLines

/-! The aliases of the screens as they are written, under a header for each screen, and read again. The word that ends
a section is no alias. -/

namespace InputLeap

open InputLeap.Lib InputLeap.Lib.Text

namespace Config

def withNames (c : Config) (es : List (Name × Name)) : Config :=
  { c with nameToCanonicalName := es.foldl (fun names e => names.insert e.1 e.2) c.nameToCanonicalName }

variable {c : Config} {es : List (Name × Name)} {name : Name}

lemma withNames_append (c : Config) (es ds : List (Name × Name)) :
    c.withNames (es ++ ds) = (c.withNames es).withNames ds := by
  simp [withNames]

lemma find?_withNames (h : ∀ e ∈ es, caseless e.1 ≠ caseless name) :
    (c.withNames es).nameToCanonicalName.find? name = c.nameToCanonicalName.find? name := by
  induction es generalizing c with
  | nil => rfl
  | cons e es ih =>
    change ((c.withNames [e]).withNames es).nameToCanonicalName.find? name = _
    rw [ih fun d hd => h d (List.mem_cons_of_mem e hd)]
    exact OrdMap.find?_insert_of_ne (Ne.symm (h e List.mem_cons_self))

lemma isScreen_withNames (h : ∀ e ∈ es, caseless e.1 ≠ caseless name) :
    (c.withNames es).isScreen name = c.isScreen name := by
  rw [isScreen, isScreen, OrdMap.contains, OrdMap.contains, find?_withNames h]

lemma isScreen_of_withNames (h : c.isScreen name = true ∨ ∃ e ∈ es, caseless e.1 = caseless name) :
    (c.withNames es).isScreen name = true := by
  induction es generalizing c with
  | nil => exact h.resolve_right (by simp)
  | cons e es ih =>
    change ((c.withNames [e]).withNames es).isScreen name = true
    apply ih
    rcases h with h | ⟨d, hd, hsame⟩
    · exact .inl (OrdMap.contains_insert.mpr (.inr h))
    · rcases List.mem_cons.mp hd with rfl | hd
      · exact .inl (OrdMap.contains_insert.mpr (.inl hsame))
      · exact .inr ⟨d, hd, hsame⟩

lemma getCanonicalName_withNames (h : ∀ e ∈ es, caseless e.1 ≠ caseless name) :
    (c.withNames es).getCanonicalName name = c.getCanonicalName name := by
  rw [getCanonicalName, getCanonicalName, find?_withNames h]

end Config

section Aliases

variable {resolves : Name → Bool} {s : Reading} {screen name : Name}

lemma isNameChar_clean {line : Name} (hne : line ≠ []) (h : ∀ c ∈ line, isNameChar c = true) : CleanLine line := by
  have hword := fun c hc => isWordChar_iff (isWordChar_of_isNameChar (h c hc))
  refine ⟨fun c hc => isLineChar_of_isGraph (hword c hc).1 (hword c hc).2.2.1, ?_, ?_⟩
  · obtain ⟨c, u, rfl⟩ := List.exists_cons_of_ne_nil hne
    exact ⟨c, rfl, isBlank_of_isGraph (hword c List.mem_cons_self).1⟩
  · refine ⟨line.getLast hne, List.getLast?_eq_some_getLast hne, ?_⟩
    exact isLineEnd_of_isGraph (hword _ (List.getLast_mem hne)).1

lemma next_alias (hinside : s.inside = some .aliases) (hscreen : s.screen = screen) (hne : screen ≠ [])
    (hvalid : Reading.isValidScreenName name = true) (hend : name ≠ "end".toList)
    (hnew : s.config.isScreen name = false) (hmap : s.config.map.contains screen = true) :
    s.next resolves ("\t\t".toList ++ name) = some (s.setConfig (s.config.withNames [(name, screen)])) := by
  obtain ⟨hname, hchars⟩ := isNameChar_of_valid hvalid
  have hlast : name.getLast? ≠ some ':' := by
    intro h
    exact absurd (hchars _ (List.mem_of_getLast? h)) (by decide)
  have hadd : s.config.addAlias screen name = some (s.config.withNames [(name, screen)]) := by
    rw [Config.addAlias, if_neg]
    · rfl
    · have hcontains : s.config.nameToCanonicalName.contains name = false := hnew
      simp [hcontains, hmap]
  rw [next_content hinside (by decide) (isNameChar_clean hname hchars) hend, Reading.readContent, Reading.readAliasLine,
    if_neg hlast, hscreen, if_neg hne, if_neg (by simp [hvalid]), hadd]
  rfl

lemma next_aliasHeader (hinside : s.inside = some .aliases) (hname : name ≠ [] ∧ ∀ ch ∈ name, isNameChar ch = true)
    (hscreen : s.config.isScreen name = true) (hcanonical : s.config.isCanonicalName name = true) :
    s.next resolves (header name) = some { s with screen := name } := by
  rw [next_header hinside hname.1 hname.2, Reading.readContent, Reading.readAliasLine, if_pos (by simp), Reading.readHeader,
    List.dropLast_concat, if_neg (by simp [hscreen]), if_neg (by simp [hcanonical])]
  rfl

structure Alias (c : Config) (screen name : Name) : Prop where
  valid : Reading.isValidScreenName name = true
  word : name ≠ "end".toList
  fresh : c.isScreen name = false

lemma Alias.withNames {c : Config} {es : List (Name × Name)} (h : Alias c screen name)
    (hes : ∀ e ∈ es, caseless e.1 ≠ caseless name) : Alias (c.withNames es) screen name :=
  ⟨h.valid, h.word, (Config.isScreen_withNames hes).trans h.fresh⟩

lemma runFrom_screenAliases (hinside : s.inside = some .aliases) (hscreen : s.screen = screen) (hne : screen ≠ [])
    {names : List Name} (hnames : ∀ name ∈ names, Alias s.config screen name)
    (hdistinct : names.Pairwise fun a b => caseless a ≠ caseless b) (hmap : s.config.map.contains screen = true) :
    runFrom (Reading.next resolves) (names.map ("\t\t".toList ++ ·)) s =
      some (s.setConfig (s.config.withNames (names.map fun name => (name, screen)))) := by
  induction names generalizing s with
  | nil => rfl
  | cons name names ih =>
    obtain ⟨hfirst, hrest⟩ := List.pairwise_cons.mp hdistinct
    have halias := hnames name List.mem_cons_self
    rw [List.map_cons, runFrom, next_alias hinside hscreen hne halias.valid halias.word halias.fresh hmap,
      Option.bind_some, List.map_cons]
    exact ih (s := s.setConfig (s.config.withNames [(name, screen)])) hinside hscreen
      (fun other hother => (hnames other (List.mem_cons_of_mem name hother)).withNames (by simpa using hfirst other hother))
      hrest hmap

def aliasLines (screen : Name) (names : List Name) : List Name :=
  if names = [] then [] else header screen :: names.map ("\t\t".toList ++ ·)

def aliasPairs (es : List (Name × List Name)) : List (Name × Name) :=
  es.flatMap fun e => e.2.map fun name => (name, e.1)

/-- The screens are there under their own names, and the aliases are new and different from each other. -/
structure Aliased (c : Config) (es : List (Name × List Name)) : Prop where
  screens : ∀ e ∈ es, Reading.isValidScreenName e.1 = true ∧ c.isScreen e.1 = true ∧ c.isCanonicalName e.1 = true ∧
    c.map.contains e.1 = true
  aliases : ∀ e ∈ es, ∀ name ∈ e.2, Alias c e.1 name
  distinct : (aliasPairs es).Pairwise fun a b => caseless a.1 ≠ caseless b.1

lemma Aliased.ne {c : Config} {es : List (Name × List Name)} (h : Aliased c es) {e : Name × List Name} (he : e ∈ es)
    {d : Name × Name} (hd : d ∈ aliasPairs es) : caseless d.1 ≠ caseless e.1 := by
  obtain ⟨e', he', hpair⟩ := List.mem_flatMap.mp hd
  obtain ⟨name, hname, rfl⟩ := List.mem_map.mp hpair
  intro heq
  have hnew := (h.aliases e' he' name hname).fresh
  obtain ⟨d, hd, hkey⟩ := OrdMap.contains_iff.mp (h.screens e he).2.1
  exact (OrdMap.contains_eq_false.mp hnew) d.1 d.2 hd (hkey.trans heq.symm)

lemma Aliased.rest {c : Config} {e : Name × List Name} {es : List (Name × List Name)} (h : Aliased c (e :: es)) :
    Aliased (c.withNames (e.2.map fun name => (name, e.1))) es := by
  have hsub (d : Name × Name) (hd : d ∈ e.2.map fun name => (name, e.1)) : d ∈ aliasPairs (e :: es) :=
    List.mem_flatMap.mpr ⟨e, List.mem_cons_self, hd⟩
  have hdistinct := h.distinct
  rw [aliasPairs, List.flatMap_cons, List.pairwise_append] at hdistinct
  refine ⟨fun d hd => ?_, fun d hd name hname => ?_, hdistinct.2.1⟩
  · obtain ⟨hvalid, hscreen, hcanonical, hmap⟩ := h.screens d (List.mem_cons_of_mem e hd)
    have hne (p : Name × Name) (hp : p ∈ e.2.map fun name => (name, e.1)) : caseless p.1 ≠ caseless d.1 :=
      h.ne (List.mem_cons_of_mem e hd) (hsub p hp)
    refine ⟨hvalid, (Config.isScreen_withNames hne).trans hscreen, ?_, hmap⟩
    rw [Config.isCanonicalName, Config.getCanonicalName_withNames hne]
    exact hcanonical
  · apply (h.aliases d (List.mem_cons_of_mem e hd) name hname).withNames
    intro p hp
    exact hdistinct.2.2 p hp (name, d.1) (List.mem_flatMap.mpr ⟨d, hd, List.mem_map.mpr ⟨name, hname, rfl⟩⟩)

lemma runFrom_aliasLines (hinside : s.inside = some .aliases) {es : List (Name × List Name)} (h : Aliased s.config es) :
    ∃ screen, runFrom (Reading.next resolves) (es.flatMap fun e => aliasLines e.1 e.2) s =
      some { s.setConfig (s.config.withNames (aliasPairs es)) with screen := screen } := by
  induction es generalizing s with
  | nil => exact ⟨s.screen, rfl⟩
  | cons e es ih =>
    obtain ⟨hvalid, hscreen, hcanonical, hmap⟩ := h.screens e List.mem_cons_self
    have hdistinct := h.distinct
    rw [aliasPairs, List.flatMap_cons, List.pairwise_append, List.pairwise_map] at hdistinct
    rw [List.flatMap_cons, runFrom_append, aliasPairs, List.flatMap_cons, Config.withNames_append]
    by_cases hnil : e.2 = []
    · rw [aliasLines, if_pos hnil, hnil]
      have hrest := h.rest
      rw [hnil] at hrest
      exact ih hinside hrest
    · have hrun : runFrom (Reading.next resolves) (aliasLines e.1 e.2) s =
          some { s.setConfig (s.config.withNames (e.2.map fun name => (name, e.1))) with screen := e.1 } := by
        rw [aliasLines, if_neg hnil, runFrom, next_aliasHeader hinside (isNameChar_of_valid hvalid) hscreen hcanonical, Option.bind_some]
        exact runFrom_screenAliases (s := { s with screen := e.1 }) hinside rfl (isNameChar_of_valid hvalid).1
          (fun name hname => h.aliases e List.mem_cons_self name hname) hdistinct.1 hmap
      rw [hrun, Option.bind_some]
      exact ih (s := { s.setConfig (s.config.withNames (e.2.map fun name => (name, e.1))) with screen := e.1 }) hinside h.rest

end Aliases

section Ended

variable {resolves : Name → Bool} {s : Reading}

lemma next_outside {line indent : Name} (hs : s.inside = none) (hindent : ∀ c ∈ indent, isBlank c = true)
    (hclean : CleanLine line) (hsection : "section:".toList.isPrefixOf line = false ∨ line = "section:".toList) :
    s.next resolves (indent ++ line) = none := by
  rw [Reading.next, Reading.readLine, stripLine_indent hindent hclean]
  dsimp only
  rw [checkChars_clean hclean, hs]
  change (s.readSection line).toOption = none
  rcases hsection with hnot | rfl
  · rw [Reading.readSection, if_pos hnot]
    rfl
  · rfl

lemma not_section {line : Name} (h : ':' ∉ line) : "section:".toList.isPrefixOf line = false := by
  rw [← Bool.not_eq_true, List.isPrefixOf_iff_prefix]
  intro hstarts
  exact h (hstarts.subset (by decide))

lemma next_outside_name {name : Name} (hs : s.inside = none) (hne : name ≠ [])
    (hname : ∀ c ∈ name, isNameChar c = true) : s.next resolves ("\t\t".toList ++ name) = none := by
  apply next_outside hs (by decide) (isNameChar_clean hne hname)
  exact .inl (not_section fun h => absurd (hname ':' h) (by decide))

lemma next_outside_header {name : Name} (hs : s.inside = none) (hne : name ≠ [])
    (hname : ∀ c ∈ name, isNameChar c = true) : s.next resolves (header name) = none := by
  have hheader : header name = ['\t'] ++ (name ++ [':']) := rfl
  rw [hheader]
  apply next_outside hs (by decide) (header_clean hne hname).1
  by_cases hsection : "section:".toList.isPrefixOf (name ++ [':']) = true
  · refine .inr ?_
    obtain ⟨rest, hrest⟩ := List.isPrefixOf_iff_prefix.mp hsection
    rcases List.eq_nil_or_concat rest with rfl | ⟨u, c, rfl⟩
    · rw [← hrest, List.append_nil]
    · -- the colon of the keyword would be in the name
      have hname' : "section:".toList ++ u = name := by
        rw [List.concat_eq_append, ← List.append_assoc] at hrest
        exact (List.append_inj' hrest rfl).1
      exact absurd (hname ':' (hname' ▸ by simp)) (by decide)
  · exact .inl (Bool.eq_false_iff.mpr hsection)

lemma runFrom_ended {lines : List Name} {word : Name}
    (houtside : ∀ raw ∈ lines, ∀ s : Reading, s.inside = none → s.next resolves raw = none) (hword : word ∈ lines)
    (hend : ∀ (s : Reading) (sect : SectionName), s.inside = some sect →
      s.next resolves word = some { s with inside := none }) :
    runFrom (Reading.next resolves) (lines ++ ["end".toList]) s = none := by
  obtain ⟨before, after, rfl⟩ := List.append_of_mem hword
  have hlast (s : Reading) (hs : s.inside = none) : s.next resolves "end".toList = none :=
    @next_outside resolves s "end".toList [] hs (by simp) (isNameChar_clean (by decide) (by decide)) (.inl (by decide))
  rw [List.append_assoc, runFrom_append]
  cases runFrom (Reading.next resolves) before s with
  | none => rfl
  | some t =>
    rw [Option.bind_some, List.cons_append, runFrom]
    cases hinside : t.inside with
    | none => rw [houtside word hword t hinside, Option.bind_none]
    | some sect =>
      rw [hend t sect hinside, Option.bind_some]
      cases after with
      | nil =>
        rw [List.nil_append, runFrom, hlast _ rfl]
        rfl
      | cons raw after =>
        rw [List.cons_append, runFrom, houtside raw (by simp) _ rfl]
        rfl

end Ended

end InputLeap
