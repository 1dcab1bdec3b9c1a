import InputLeap.Lib.Reachable
import InputLeap.Server.Config

/-! The names of screens. The table of names follows the map of screens through all operations that
change them, as long as a screen is not renamed by one of its aliases. -/

namespace InputLeap

open InputLeap.Lib

namespace Cell

def rename (c : Cell) (isOld : Name → Bool) (newName : Name) : Cell :=
  { c with neighbors := c.neighbors.mapValues fun dst => if isOld dst.name then { dst with name := newName } else dst }

def removeLinks (c : Cell) (isOld : Name → Bool) : Cell :=
  { c with neighbors := c.neighbors.filter fun e => !isOld e.2.name }

end Cell

namespace Config

/-- `Name::operator==`: two names are compared by what they resolve to now. -/
def sameScreen (c : Config) (canonical name : Name) : Bool :=
  decide (caseless (c.getCanonicalName name) = caseless canonical)

/-- The names are resolved again while the table is being edited. -/
def renameScreen (c : Config) (oldName newName : Name) : Option Config :=
  let oldCanonical := c.getCanonicalName oldName
  match c.map.find? oldCanonical with
  | none => none
  | some cell =>
    if caseless oldName ≠ caseless newName ∧ c.nameToCanonicalName.contains newName then none
    else
      let c := { c with
        map := (c.map.erase oldCanonical).insert newName cell
        nameToCanonicalName := (c.nameToCanonicalName.erase oldCanonical).insert newName newName }
      let resolved := c.getCanonicalName oldName
      let c := { c with map := c.map.mapValues fun cell => cell.rename (c.sameScreen resolved) newName }
      some <|
        if caseless oldName = caseless oldCanonical then
          { c with
            nameToCanonicalName :=
              c.nameToCanonicalName.mapValues fun name =>
                if caseless name = caseless oldCanonical then newName else name }
        else c

/-- The loop that removes the names does not get past a name of another screen: it advances the iterator of another
map, which is at its end. There is no state after that. -/
def removeScreen (c : Config) (name : Name) : Option Config :=
  let canonical := c.getCanonicalName name
  if c.map.contains canonical = false then some c
  else
    let c := { c with map := c.map.erase canonical }
    let resolved := c.getCanonicalName name
    let c := { c with map := c.map.mapValues fun cell => cell.removeLinks (c.sameScreen resolved) }
    if ∀ e ∈ c.nameToCanonicalName.entries, e.2 = canonical then some { c with nameToCanonicalName := .empty }
    else none

def removeAlias (c : Config) (name : Name) : Option Config :=
  if c.map.contains name || !c.nameToCanonicalName.contains name then none
  else some { c with nameToCanonicalName := c.nameToCanonicalName.erase name }

def removeAliases (c : Config) (canonical : Name) : Option Config :=
  if c.map.contains canonical then
    some { c with
      nameToCanonicalName :=
        c.nameToCanonicalName.filter fun e => !decide (e.2 = canonical ∧ e.1 ≠ canonical) }
  else none

def removeAllAliases (c : Config) : Config :=
  { c with
    nameToCanonicalName :=
      c.map.entries.foldl (fun (names : OrdMap caseless Name) e => names.insert e.1 e.1) .empty }

inductive Edit
  | addScreen (name : Name)
  | renameScreen (oldName newName : Name)
  | removeScreen (name : Name)
  | addAlias (canonical name : Name)
  | removeAlias (name : Name)
  | removeAliases (canonical : Name)
  | removeAllAliases
  | connect (srcName : Name) (srcSide : Direction) (srcStart srcEnd : ℚ) (dstName : Name) (dstStart dstEnd : ℚ)

/-- An operation that is refused leaves the configuration as it is. -/
def edit (c : Config) : Edit → Option Config
  | .addScreen name => some ((c.addScreen name).getD c)
  | .renameScreen oldName newName => some ((c.renameScreen oldName newName).getD c)
  | .removeScreen name => c.removeScreen name
  | .addAlias canonical name => some ((c.addAlias canonical name).getD c)
  | .removeAlias name => some ((c.removeAlias name).getD c)
  | .removeAliases canonical => some ((c.removeAliases canonical).getD c)
  | .removeAllAliases => some c.removeAllAliases
  | .connect srcName srcSide srcStart srcEnd dstName dstStart dstEnd =>
    some ((c.connect srcName srcSide srcStart srcEnd dstName dstStart dstEnd).getD c)

/-- Every name leads to a screen, and every screen to itself. -/
structure NamesAgree (c : Config) : Prop where
  known : ∀ e ∈ c.nameToCanonicalName.entries, c.map.contains e.2 = true
  own : ∀ name, c.map.contains name = true →
    ∃ e ∈ c.nameToCanonicalName.entries, caseless e.1 = caseless name ∧ caseless e.2 = caseless name

/-- Moreover, the name of a screen itself is stored twice in one spelling. -/
structure NamesInv (c : Config) : Prop extends NamesAgree c where
  spelling : ∀ e ∈ c.nameToCanonicalName.entries, caseless e.1 = caseless e.2 → e.1 = e.2

def KeepsNames (c : Config) (e : Edit) : Prop := ∃ d, c.edit e = some d ∧ NamesAgree d

/-- The name is that of the screen itself, or the screen has no alias. -/
def MayRename (c : Config) (oldName : Name) : Prop :=
  caseless oldName = caseless (c.getCanonicalName oldName) ∨
    ∀ e ∈ c.nameToCanonicalName.entries, caseless e.2 = caseless (c.getCanonicalName oldName) →
      caseless e.1 = caseless e.2

/-- A screen is only renamed by its own name or if it has no alias, and only removed if there is no other name in the
table, not even one in another spelling. -/
def MeetsNames (c : Config) : Edit → Prop
  | .renameScreen oldName newName =>
    c.map.contains (c.getCanonicalName oldName) = false ∨
      caseless oldName ≠ caseless newName ∧ c.isScreen newName = true ∨ c.MayRename oldName
  | .removeScreen name =>
    c.map.contains (c.getCanonicalName name) = false ∨
      ∀ e ∈ c.nameToCanonicalName.entries, e.2 = c.getCanonicalName name
  | _ => True

section Steps

variable {c : Config}

lemma NamesInv.addScreen (h : NamesInv c) {name : Name} {d : Config} (hd : c.addScreen name = some d) :
    NamesInv d := by
  rw [Config.addScreen] at hd
  split_ifs at hd with hnew
  obtain rfl := Option.some.inj hd
  have hnew : c.nameToCanonicalName.contains name = false := Bool.eq_false_iff.mpr hnew
  refine ⟨⟨?_, ?_⟩, ?_⟩
  · intro e he
    rw [OrdMap.contains_insert]
    rcases (OrdMap.mem_insert hnew).mp he with rfl | he
    · exact .inl rfl
    · exact .inr (h.known e he)
  · intro other hother
    rcases OrdMap.contains_insert.mp hother with hname | hother
    · exact ⟨(name, name), (OrdMap.mem_insert hnew).mpr (.inl rfl), hname, hname⟩
    · obtain ⟨e, he, hown⟩ := h.own other hother
      exact ⟨e, (OrdMap.mem_insert hnew).mpr (.inr he), hown⟩
  · intro e he hsame
    rcases (OrdMap.mem_insert hnew).mp he with rfl | he
    · rfl
    · exact h.spelling e he hsame

lemma NamesInv.addAlias (h : NamesInv c) {canonical name : Name} {d : Config}
    (hd : c.addAlias canonical name = some d) : NamesInv d := by
  rw [Config.addAlias] at hd
  split_ifs at hd with hnew
  obtain rfl := Option.some.inj hd
  obtain ⟨hnew, hcanonical⟩ : c.nameToCanonicalName.contains name = false ∧ c.map.contains canonical = true := by
    simpa using hnew
  refine ⟨⟨?_, ?_⟩, ?_⟩
  · intro e he
    rcases (OrdMap.mem_insert hnew).mp he with rfl | he
    · exact hcanonical
    · exact h.known e he
  · intro other hother
    obtain ⟨e, he, hown⟩ := h.own other hother
    exact ⟨e, (OrdMap.mem_insert hnew).mpr (.inr he), hown⟩
  · intro e he hsame
    rcases (OrdMap.mem_insert hnew).mp he with rfl | he
    · obtain ⟨e, he, hname, -⟩ := h.own canonical hcanonical
      exact absurd (hname.trans hsame.symm) (OrdMap.contains_eq_false.mp hnew e.1 e.2 he)
    · exact h.spelling e he hsame

lemma NamesInv.filter (h : NamesInv c) {names : OrdMap caseless Name}
    (hsub : ∀ e ∈ names.entries, e ∈ c.nameToCanonicalName.entries)
    (hown : ∀ e ∈ c.nameToCanonicalName.entries, c.map.contains e.1 = true → e.1 = e.2 → e ∈ names.entries) :
    NamesInv { c with nameToCanonicalName := names } := by
  refine ⟨⟨fun e he => h.known e (hsub e he), ?_⟩, fun e he => h.spelling e (hsub e he)⟩
  intro name hname
  obtain ⟨e, he, hfirst, hsecond⟩ := h.own name hname
  obtain ⟨k, hk, hkname⟩ := OrdMap.contains_iff.mp hname
  refine ⟨e, hown e he ?_ ?_, hfirst, hsecond⟩
  · exact OrdMap.contains_iff.mpr ⟨k, hk, hkname.trans hfirst.symm⟩
  · exact h.spelling e he (hfirst.trans hsecond.symm)

lemma NamesInv.removeAlias (h : NamesInv c) {name : Name} {d : Config} (hd : c.removeAlias name = some d) :
    NamesInv d := by
  rw [Config.removeAlias] at hd
  split_ifs at hd with hname
  obtain rfl := Option.some.inj hd
  have hscreen : c.map.contains name = false := by
    by_contra hscreen
    exact hname (by simp [eq_true_of_ne_false hscreen])
  apply h.filter
  · exact fun e he => (OrdMap.mem_erase.mp he).1
  · intro e he hscreen' _
    refine OrdMap.mem_erase.mpr ⟨he, fun hsame => ?_⟩
    obtain ⟨k, hk, hkname⟩ := OrdMap.contains_iff.mp hscreen'
    exact OrdMap.contains_eq_false.mp hscreen k.1 k.2 hk (hkname.trans hsame)

lemma NamesInv.removeAliases (h : NamesInv c) {canonical : Name} {d : Config}
    (hd : c.removeAliases canonical = some d) : NamesInv d := by
  rw [Config.removeAliases] at hd
  split_ifs at hd
  obtain rfl := Option.some.inj hd
  apply h.filter
  · exact fun e he => (OrdMap.mem_filter.mp he).1
  · intro e he _ hsame
    refine OrdMap.mem_filter.mpr ⟨he, ?_⟩
    simp [hsame]

section AllAliases

variable {es : List (Name × Cell)} {names : OrdMap caseless Name}

lemma mem_foldl_insert {e : Name × Name}
    (h : e ∈ (es.foldl (fun (names : OrdMap caseless Name) e => names.insert e.1 e.1) names).entries) :
    e ∈ names.entries ∨ ∃ k ∈ es, e = (k.1, k.1) := by
  induction es generalizing names with
  | nil => exact .inl h
  | cons k es ih =>
    rcases ih h with he | ⟨k', hk', he⟩
    · rcases OrdMap.mem_insertEntry he with he | he
      · exact .inr ⟨k, List.mem_cons_self, he⟩
      · exact .inl he
    · exact .inr ⟨k', List.mem_cons_of_mem k hk', he⟩

lemma contains_foldl_insert {name : Name} (h : names.contains name = true ∨ ∃ k ∈ es, caseless k.1 = caseless name) :
    (es.foldl (fun (names : OrdMap caseless Name) e => names.insert e.1 e.1) names).contains name = true := by
  induction es generalizing names with
  | nil => exact h.resolve_right (by simp)
  | cons k es ih =>
    apply ih
    rw [OrdMap.contains_insert]
    rcases h with h | ⟨k', hk', hname⟩
    · exact .inl (.inr h)
    · rcases List.mem_cons.mp hk' with rfl | hk'
      · exact .inl (.inl hname)
      · exact .inr ⟨k', hk', hname⟩

end AllAliases

lemma namesInv_removeAllAliases (c : Config) : NamesInv c.removeAllAliases := by
  have hentry : ∀ e ∈ c.removeAllAliases.nameToCanonicalName.entries, ∃ k ∈ c.map.entries, e = (k.1, k.1) :=
    fun e he => (mem_foldl_insert he).resolve_left (List.not_mem_nil)
  refine ⟨⟨?_, ?_⟩, ?_⟩
  · intro e he
    obtain ⟨k, hk, rfl⟩ := hentry e he
    exact OrdMap.contains_iff.mpr ⟨k, hk, rfl⟩
  · intro name hname
    obtain ⟨e, he, hsame⟩ := OrdMap.contains_iff.mp (contains_foldl_insert (.inr (OrdMap.contains_iff.mp hname)))
    obtain ⟨k, -, rfl⟩ := hentry e he
    exact ⟨_, he, hsame, hsame⟩
  · intro e he _
    obtain ⟨k, -, rfl⟩ := hentry e he
    rfl

lemma NamesInv.congr {d : Config} (h : NamesInv c) (hmap : ∀ name, d.map.contains name = c.map.contains name)
    (hnames : d.nameToCanonicalName = c.nameToCanonicalName) : NamesInv d := by
  refine ⟨⟨?_, ?_⟩, ?_⟩
  · intro e he
    rw [hmap]
    exact h.known e (hnames ▸ he)
  · intro name hname
    rw [hnames]
    exact h.own name (hmap name ▸ hname)
  · rw [hnames]
    exact h.spelling

lemma NamesInv.connect (h : NamesInv c) {srcName dstName : Name} {side : Direction} {a b a' b' : ℚ} {d : Config}
    (hd : c.connect srcName side a b dstName a' b' = some d) : NamesInv d := by
  rw [Config.connect] at hd
  split_ifs at hd
  split at hd
  · exact absurd hd.symm (Option.some_ne_none _)
  · obtain ⟨cell, -, rfl⟩ := Option.map_eq_some_iff.mp hd
    exact h.congr (fun _ => OrdMap.contains_modify) rfl

section Rename

variable {oldName newName : Name} {d : Config}

lemma renameScreen_cases (hd : c.renameScreen oldName newName = some d) :
    c.map.contains (c.getCanonicalName oldName) = true ∧
    (c.nameToCanonicalName.contains newName = true → caseless oldName = caseless newName) ∧
    (∀ name, d.map.contains name = true ↔ caseless newName = caseless name ∨
      c.map.contains name = true ∧ caseless name ≠ caseless (c.getCanonicalName oldName)) ∧
    d.nameToCanonicalName =
      if caseless oldName = caseless (c.getCanonicalName oldName) then
        ((c.nameToCanonicalName.erase (c.getCanonicalName oldName)).insert newName newName).mapValues fun name =>
          if caseless name = caseless (c.getCanonicalName oldName) then newName else name
      else (c.nameToCanonicalName.erase (c.getCanonicalName oldName)).insert newName newName := by
  simp only [renameScreen] at hd
  split at hd
  · exact absurd hd.symm (Option.some_ne_none _)
  · rename_i cell hcell
    by_cases hnew : caseless oldName ≠ caseless newName ∧ c.nameToCanonicalName.contains newName
    · rw [if_pos hnew] at hd
      exact absurd hd.symm (Option.some_ne_none _)
    · rw [if_neg hnew] at hd
      have hmap : c.map.contains (c.getCanonicalName oldName) = true := by rw [OrdMap.contains, hcell]; rfl
      refine ⟨hmap, fun hcontains => ?_, ?_, ?_⟩
      · by_contra hne
        exact hnew ⟨hne, hcontains⟩
      · intro name
        rw [← Option.some.inj hd]
        split_ifs <;>
          simp only [OrdMap.contains_mapValues, OrdMap.contains_insert, OrdMap.contains_erase]
      · rw [← Option.some.inj hd]
        split_ifs <;> rfl

lemma not_contains_newName (hold : MayRename c oldName)
    (hfree : c.nameToCanonicalName.contains newName = true → caseless oldName = caseless newName) :
    (c.nameToCanonicalName.erase (c.getCanonicalName oldName)).contains newName = false := by
  rw [← Bool.not_eq_true, OrdMap.contains_erase]
  rintro ⟨hcontains, hne⟩
  have hsame := hfree hcontains
  rcases hold with hold | hold
  · exact hne (hsame.symm.trans hold)
  · -- the old name is in the table, so it leads to a screen of another name
    obtain ⟨e, he, hname⟩ := OrdMap.contains_iff.mp hcontains
    have hfind : c.nameToCanonicalName.find? oldName = some e.2 :=
      OrdMap.find?_eq_some.mpr ⟨e.1, hname.trans hsame.symm, he⟩
    have hcanonical : c.getCanonicalName oldName = e.2 := by rw [getCanonicalName, hfind]; rfl
    rw [hcanonical] at hold hne
    exact hne (hname.symm.trans (hold e he rfl))

/-- The entries after a renaming: the new name, and all others, with the target of the aliases changed. -/
lemma mem_names_renameScreen (hold : MayRename c oldName) (hd : c.renameScreen oldName newName = some d)
    {e : Name × Name} :
    e ∈ d.nameToCanonicalName.entries ↔ e = (newName, newName) ∨
      ∃ e' ∈ c.nameToCanonicalName.entries, caseless e'.1 ≠ caseless (c.getCanonicalName oldName) ∧
        e = (e'.1, if caseless e'.2 = caseless (c.getCanonicalName oldName) then newName else e'.2) := by
  obtain ⟨-, hfree, -, hnames⟩ := renameScreen_cases hd
  have hnew := not_contains_newName hold hfree
  rw [MayRename] at hold
  generalize c.getCanonicalName oldName = canonical at hold hnames hnew ⊢
  rw [hnames]
  split_ifs with hself
  · simp only [OrdMap.mem_mapValues, OrdMap.mem_insert hnew, OrdMap.mem_erase]
    constructor
    · rintro ⟨e', rfl | ⟨he', hne⟩, rfl⟩
      · exact .inl (by simp)
      · exact .inr ⟨e', he', hne, rfl⟩
    · rintro (rfl | ⟨e', he', hne, rfl⟩)
      · exact ⟨(newName, newName), .inl rfl, by simp⟩
      · exact ⟨e', .inr ⟨he', hne⟩, rfl⟩
  · -- no other name leads to the screen, so no target changes
    have hkeep : ∀ e' ∈ c.nameToCanonicalName.entries, caseless e'.1 ≠ caseless canonical →
        (e'.1, if caseless e'.2 = caseless canonical then newName else e'.2) = e' := by
      intro e' he' hne
      rw [if_neg fun hsame => hne ((hold.resolve_left hself e' he' hsame).trans hsame)]
    simp only [OrdMap.mem_insert hnew, OrdMap.mem_erase]
    constructor
    · rintro (rfl | ⟨he, hne⟩)
      · exact .inl rfl
      · exact .inr ⟨e, he, hne, (hkeep e he hne).symm⟩
    · rintro (rfl | ⟨e', he', hne, rfl⟩)
      · exact .inl rfl
      · rw [hkeep e' he' hne]
        exact .inr ⟨he', hne⟩

lemma NamesInv.renameScreen (h : NamesInv c) (hold : MayRename c oldName)
    (hd : c.renameScreen oldName newName = some d) : NamesInv d := by
  obtain ⟨-, hfree, hmap, -⟩ := renameScreen_cases hd
  have hnew := OrdMap.contains_eq_false.mp (not_contains_newName hold hfree)
  have hentries := fun {e} => mem_names_renameScreen hold hd (e := e)
  generalize c.getCanonicalName oldName = canonical at hmap hentries hnew
  refine ⟨⟨?_, ?_⟩, ?_⟩
  · intro e he
    rw [hmap]
    rcases hentries.mp he with rfl | ⟨e', he', -, rfl⟩
    · exact .inl rfl
    · dsimp only
      split_ifs with htarget
      · exact .inl rfl
      · exact .inr ⟨h.known e' he', htarget⟩
  · intro name hname
    rcases (hmap name).mp hname with hname | ⟨hname, hne⟩
    · exact ⟨(newName, newName), hentries.mpr (.inl rfl), hname, hname⟩
    · obtain ⟨e, he, hfirst, hsecond⟩ := h.own name hname
      refine ⟨e, hentries.mpr (.inr ⟨e, he, hfirst ▸ hne, ?_⟩), hfirst, hsecond⟩
      rw [if_neg (hsecond ▸ hne)]
  · intro e he hsame
    rcases hentries.mp he with rfl | ⟨e', he', hne, rfl⟩
    · rfl
    · dsimp only at hsame ⊢
      split_ifs at hsame ⊢ with htarget
      · exact absurd hsame (hnew e'.1 e'.2 (OrdMap.mem_erase.mpr ⟨he', hne⟩))
      · exact h.spelling e' he' hsame

/-- An alias of a screen that is renamed by an alias leads nowhere. -/
lemma mayRename_of_agree (h : NamesInv c) (hd : c.renameScreen oldName newName = some d) (hagree : NamesAgree d) :
    MayRename c oldName := by
  obtain ⟨hscreen, hfree, hmap, hnames⟩ := renameScreen_cases hd
  by_contra hnot
  rw [MayRename, not_or] at hnot
  obtain ⟨hself, hall⟩ := hnot
  rw [if_neg hself] at hnames
  generalize c.getCanonicalName oldName = canonical at *
  push Not at hall
  obtain ⟨e, he, htarget, halias⟩ := hall
  have hkept : e ∈ d.nameToCanonicalName.entries := by
    have herase : e ∈ (c.nameToCanonicalName.erase canonical).entries :=
      OrdMap.mem_erase.mpr ⟨he, fun hsame => halias (hsame.trans htarget.symm)⟩
    rw [hnames]
    rcases hcontains : (c.nameToCanonicalName.erase canonical).contains newName with _ | _
    · exact (OrdMap.mem_insert hcontains).mpr (.inr herase)
    · rw [OrdMap.insert_of_contains hcontains]
      exact herase
  rcases (hmap e.2).mp (hagree.known e hkept) with hnew | ⟨-, hne⟩
  · obtain ⟨own, hown, hfirst, -⟩ := h.own canonical hscreen
    have hcontains : c.nameToCanonicalName.contains newName = true :=
      OrdMap.contains_iff.mpr ⟨own, hown, hfirst.trans (htarget.symm.trans hnew.symm)⟩
    exact hself ((hfree hcontains).trans (hnew.trans htarget))
  · exact hne htarget

lemma renameScreen_eq_none : c.renameScreen oldName newName = none ↔
    c.map.contains (c.getCanonicalName oldName) = false ∨
      caseless oldName ≠ caseless newName ∧ c.isScreen newName = true := by
  constructor
  · intro hnone
    by_contra hnot
    rw [not_or, Bool.not_eq_false, OrdMap.contains, Option.isSome_iff_exists] at hnot
    obtain ⟨⟨cell, hcell⟩, hnew⟩ := hnot
    simp only [renameScreen, hcell] at hnone
    rw [if_neg (show ¬ (_ ∧ c.nameToCanonicalName.contains newName = true) from hnew)] at hnone
    exact Option.some_ne_none _ hnone
  · intro h
    rcases hd : c.renameScreen oldName newName with _ | d
    · rfl
    · obtain ⟨hscreen, hfree, -⟩ := renameScreen_cases hd
      rcases h with h | ⟨hne, htaken⟩
      · exact absurd (h.symm.trans hscreen) Bool.false_ne_true
      · exact absurd (hfree htaken) hne

end Rename

lemma NamesInv.removeScreen (h : NamesInv c) {name : Name} {d : Config} (hd : c.removeScreen name = some d) :
    NamesInv d := by
  simp only [Config.removeScreen] at hd
  split_ifs at hd with hscreen hall
  · exact Option.some.inj hd ▸ h
  · obtain rfl := Option.some.inj hd
    refine ⟨⟨fun e he => absurd he (List.not_mem_nil), ?_⟩, fun e he => absurd he (List.not_mem_nil)⟩
    intro other hother
    rw [OrdMap.contains_mapValues, OrdMap.contains_erase] at hother
    obtain ⟨e, he, -, htarget⟩ := h.own other hother.1
    rw [hall e he] at htarget
    exact absurd htarget.symm hother.2

lemma removeScreen_isSome_iff {name : Name} :
    (∃ d, c.removeScreen name = some d) ↔ MeetsNames c (.removeScreen name) := by
  change _ ↔ c.map.contains (c.getCanonicalName name) = false ∨
    ∀ e ∈ c.nameToCanonicalName.entries, e.2 = c.getCanonicalName name
  simp only [Config.removeScreen]
  split_ifs with hscreen hall
  · exact iff_of_true ⟨c, rfl⟩ (.inl hscreen)
  · exact iff_of_true ⟨_, rfl⟩ (.inr hall)
  · apply iff_of_false
    · rintro ⟨d, ⟨⟩⟩
    · rintro (hnone | hall')
      · exact hscreen hnone
      · exact hall hall'

lemma NamesInv.edit (h : NamesInv c) {e : Edit} (hmeets : MeetsNames c e) {d : Config} (hd : c.edit e = some d) :
    NamesInv d := by
  have hgetD : ∀ o : Option Config, (∀ d, o = some d → NamesInv d) → NamesInv (o.getD c) := by
    rintro (_ | d) hinv
    · exact h
    · exact hinv d rfl
  cases e with
  | addScreen name => exact Option.some.inj hd ▸ hgetD _ fun _ => h.addScreen
  | renameScreen oldName newName =>
    refine Option.some.inj hd ▸ hgetD _ fun d hd => ?_
    rcases or_assoc.mpr hmeets with hrefused | hold
    · rw [renameScreen_eq_none.mpr hrefused] at hd
      exact absurd hd.symm (Option.some_ne_none _)
    · exact h.renameScreen hold hd
  | removeScreen name => exact h.removeScreen hd
  | addAlias canonical name => exact Option.some.inj hd ▸ hgetD _ fun _ => h.addAlias
  | removeAlias name => exact Option.some.inj hd ▸ hgetD _ fun _ => h.removeAlias
  | removeAliases canonical => exact Option.some.inj hd ▸ hgetD _ fun _ => h.removeAliases
  | removeAllAliases => exact Option.some.inj hd ▸ namesInv_removeAllAliases c
  | connect srcName srcSide a b dstName a' b' => exact Option.some.inj hd ▸ hgetD _ fun _ => h.connect

lemma NamesInv.keepsNames_iff (h : NamesInv c) (e : Edit) : KeepsNames c e ↔ MeetsNames c e := by
  constructor
  · rintro ⟨d, hd, hagree⟩
    cases e with
    | renameScreen oldName newName =>
      rcases hrename : c.renameScreen oldName newName with _ | d'
      · exact or_assoc.mp (.inl (renameScreen_eq_none.mp hrename))
      · have hd' : d' = d := by
          change some ((c.renameScreen oldName newName).getD c) = some d at hd
          rw [hrename] at hd
          exact Option.some.inj hd
        exact .inr (.inr (mayRename_of_agree h hrename (hd' ▸ hagree)))
    | removeScreen name => exact removeScreen_isSome_iff.mp ⟨d, hd⟩
    | _ => trivial
  · intro hmeets
    have hsome : ∃ d, c.edit e = some d := by
      cases e with
      | removeScreen name => exact removeScreen_isSome_iff.mpr hmeets
      | _ => exact ⟨_, rfl⟩
    obtain ⟨d, hd⟩ := hsome
    exact ⟨d, hd, (h.edit hmeets hd).toNamesAgree⟩

lemma namesInv_empty : NamesInv empty :=
  ⟨⟨fun _ he => absurd he (List.not_mem_nil), fun _ h => absurd h Bool.false_ne_true⟩,
    fun _ he => absurd he (List.not_mem_nil)⟩

lemma NamesInv.along_iff (h : NamesInv c) (edits : List Edit) :
    Along Config.edit KeepsNames edits c ↔ Along Config.edit MeetsNames edits c := by
  induction edits generalizing c with
  | nil => exact Iff.rfl
  | cons e edits ih =>
    rw [Along, Along, h.keepsNames_iff]
    refine and_congr_right fun hmeets => forall_congr' fun d => imp_congr_right fun hd => ?_
    exact ih (h.edit hmeets hd)

end Steps

/-- The names agree with the screens after each operation of a sequence, exactly if no screen is renamed by an alias
and none is removed while the table holds another name than the canonical one. -/
theorem names_agree_iff (edits : List Edit) :
    Along edit KeepsNames edits empty ↔ Along edit MeetsNames edits empty :=
  namesInv_empty.along_iff edits

/-- The alias of a screen that is renamed by its alias leads to no screen. -/
theorem names_disagree_after_rename : ¬ ∀ edits, Along edit KeepsNames edits empty := by
  intro hall
  have hrun := namesInv_empty.along_iff [.addScreen ['p'], .addAlias ['p'] ['a'], .renameScreen ['a'] ['q']]
  obtain ⟨-, hrun⟩ := hrun.mp (hall _)
  obtain ⟨-, hrun⟩ := hrun _ rfl
  rcases (hrun _ rfl).1 with hnone | ⟨hne, htaken⟩ | hself | hall
  · exact absurd hnone (by decide)
  · exact absurd htaken (by decide)
  · exact absurd hself (by decide)
  · exact absurd hall (by decide)

end Config

end InputLeap
