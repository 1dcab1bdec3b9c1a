import InputLeap.Server.ConfigNames
import Mathlib.Data.List.Forall2

/-! What renaming or removing a screen does to the links and to the names of the others. A link may lead to a name
that no screen has. -/

namespace InputLeap

open InputLeap.Lib

namespace Config

structure Consistent (c : Config) : Prop extends NamesAgree c where
  nonempty : ∀ e ∈ c.nameToCanonicalName.entries, e.1 ≠ [] ∧ e.2 ≠ []

/-- A link to the screen still leads to it, any other is as it was. -/
def LinkRenamed (c : Config) (canonical newName : Name) (d : Config) (link link' : CellEdge × CellEdge) : Prop :=
  if c.sameScreen canonical link.2.name then
    d.getCanonicalName link'.2.name = newName ∧ (link'.1, { link'.2 with name := link.2.name }) = link
  else link' = link

structure Renamed (c : Config) (canonical newName : Name) (d : Config) : Prop where
  screens : ∀ name, d.map.contains name = true ↔
    caseless newName = caseless name ∨ c.map.contains name = true ∧ caseless name ≠ caseless canonical
  cells : ∀ e ∈ c.map.entries, ∃ cell,
    (if caseless e.1 = caseless canonical then newName else e.1, cell) ∈ d.map.entries ∧
      cell.options = e.2.options ∧
      List.Forall₂ (LinkRenamed c canonical newName d) e.2.neighbors.entries cell.neighbors.entries
  aliases : ∀ e ∈ c.nameToCanonicalName.entries, caseless e.2 = caseless canonical →
    caseless e.1 ≠ caseless canonical → d.getCanonicalName e.1 = newName
  others : ∀ e ∈ c.nameToCanonicalName.entries, caseless e.2 ≠ caseless canonical → e ∈ d.nameToCanonicalName.entries

/-- The old name is that of the screen itself, and if it is more than respelled, no link leads to a name that no
screen has, unless it is the new one. -/
def RenamesAll (c : Config) (oldName newName : Name) : Prop :=
  caseless oldName = caseless (c.getCanonicalName oldName) ∧
    (caseless oldName = caseless newName ∨
      ∀ e ∈ c.map.entries, ∀ link ∈ e.2.neighbors.entries, c.isScreen link.2.name = false →
        caseless link.2.name = caseless newName)

variable {c : Config}

lemma getCanonicalName_of_entry {e : Name × Name} (he : e ∈ c.nameToCanonicalName.entries) {name : Name}
    (hname : caseless e.1 = caseless name) : c.getCanonicalName name = e.2 := by
  rw [getCanonicalName, OrdMap.find?_eq_some.mpr ⟨e.1, hname, he⟩]
  rfl

lemma getCanonicalName_of_not_screen {name : Name} (h : c.isScreen name = false) : c.getCanonicalName name = [] := by
  rw [isScreen, OrdMap.contains, Option.isSome_eq_false_iff, Option.isNone_iff_eq_none] at h
  rw [getCanonicalName, h]
  rfl

lemma getCanonicalName_congr {a b : Name} (h : caseless a = caseless b) :
    c.getCanonicalName a = c.getCanonicalName b := by
  rw [getCanonicalName, getCanonicalName, OrdMap.find?_congr h]

lemma caseless_eq_nil {name : Name} : caseless name = [] ↔ name = [] := List.map_eq_nil_iff

namespace Consistent

variable {name : Name}

lemma canonical_ne_nil (h : Consistent c) (hname : c.isScreen name = true) : c.getCanonicalName name ≠ [] := by
  obtain ⟨e, he, hfirst⟩ := OrdMap.contains_iff.mp hname
  rw [getCanonicalName_of_entry he hfirst]
  exact (h.nonempty e he).2

lemma ne_nil_of_map (h : Consistent c) (hname : c.map.contains name = true) : name ≠ [] := by
  obtain ⟨e, he, hfirst, -⟩ := h.own name hname
  rintro rfl
  exact (h.nonempty e he).1 (caseless_eq_nil.mp hfirst)

lemma isScreen_of_map (h : Consistent c) (hname : c.map.contains name = true) : c.isScreen name = true := by
  obtain ⟨e, he, hfirst, -⟩ := h.own name hname
  exact OrdMap.contains_iff.mpr ⟨e, he, hfirst⟩

lemma caseless_canonical (h : Consistent c) (hname : c.map.contains name = true) :
    caseless (c.getCanonicalName name) = caseless name := by
  obtain ⟨e, he, hfirst, hsecond⟩ := h.own name hname
  rw [getCanonicalName_of_entry he hfirst, hsecond]

lemma isScreen_iff (h : Consistent c) : c.map.contains (c.getCanonicalName name) = true ↔ c.isScreen name = true := by
  constructor
  · intro hmap
    by_contra hnot
    rw [getCanonicalName_of_not_screen (Bool.eq_false_of_not_eq_true hnot)] at hmap
    exact h.ne_nil_of_map hmap rfl
  · intro hname
    obtain ⟨e, he, hfirst⟩ := OrdMap.contains_iff.mp hname
    rw [getCanonicalName_of_entry he hfirst]
    exact h.known e he

end Consistent

section Renaming

variable {oldName newName : Name} {d : Config}

def midNames (c : Config) (oldName newName : Name) : OrdMap caseless Name :=
  (c.nameToCanonicalName.erase (c.getCanonicalName oldName)).insert newName newName

def midResolve (c : Config) (oldName newName name : Name) : Name :=
  ((c.midNames oldName newName).find? name).getD []

def midSame (c : Config) (oldName newName name : Name) : Bool :=
  decide (caseless (c.midResolve oldName newName name) = caseless (c.midResolve oldName newName oldName))

lemma renameScreen_map (hd : c.renameScreen oldName newName = some d) :
    ∃ cell, c.map.find? (c.getCanonicalName oldName) = some cell ∧
      d.map = ((c.map.erase (c.getCanonicalName oldName)).insert newName cell).mapValues
        fun cell => cell.rename (c.midSame oldName newName) newName := by
  simp only [renameScreen] at hd
  split at hd
  · exact absurd hd.symm (Option.some_ne_none _)
  · rename_i cell hcell
    refine ⟨cell, hcell, ?_⟩
    split_ifs at hd <;> rw [← Option.some.inj hd] <;> rfl

lemma renameScreen_resolve (h : Consistent c) (hself : caseless oldName = caseless (c.getCanonicalName oldName))
    (hd : c.renameScreen oldName newName = some d) {name : Name} :
    d.getCanonicalName name =
      if caseless (c.midResolve oldName newName name) = caseless (c.getCanonicalName oldName) then newName
      else c.midResolve oldName newName name := by
  obtain ⟨hscreen, -, -, hnames⟩ := renameScreen_cases hd
  have hne : caseless [] ≠ caseless (c.getCanonicalName oldName) :=
    fun heq => h.ne_nil_of_map hscreen (caseless_eq_nil.mp heq.symm)
  rw [if_pos hself] at hnames
  rw [getCanonicalName, hnames, OrdMap.find?_mapValues, midResolve]
  change (((c.midNames oldName newName).find? name).map _).getD [] = _
  cases (c.midNames oldName newName).find? name with
  | none => exact (if_neg hne).symm
  | some target => rfl

section Fresh

variable (hnew : (c.nameToCanonicalName.erase (c.getCanonicalName oldName)).contains newName = false)

include hnew

lemma midResolve_new {name : Name} (hname : caseless name = caseless newName) :
    c.midResolve oldName newName name = newName := by
  rw [midResolve, midNames, OrdMap.find?_congr hname, OrdMap.find?_insert_self hnew]
  rfl

omit hnew in
lemma midResolve_old {name : Name} (hname : caseless name = caseless (c.getCanonicalName oldName))
    (hne : caseless name ≠ caseless newName) : c.midResolve oldName newName name = [] := by
  have hgone := OrdMap.not_contains_erase c.nameToCanonicalName (c.getCanonicalName oldName)
  rw [OrdMap.contains, Option.isSome_eq_false_iff, Option.isNone_iff_eq_none] at hgone
  rw [midResolve, midNames, OrdMap.find?_insert_of_ne hne, OrdMap.find?_congr hname, hgone]
  rfl

omit hnew in
lemma midResolve_other {name : Name} (hname : caseless name ≠ caseless (c.getCanonicalName oldName))
    (hne : caseless name ≠ caseless newName) : c.midResolve oldName newName name = c.getCanonicalName name := by
  rw [midResolve, midNames, OrdMap.find?_insert_of_ne hne, OrdMap.find?_erase_of_ne hname]
  rfl

end Fresh

lemma midSame_of_respelled (h : Consistent c) (hscreen : c.map.contains (c.getCanonicalName oldName) = true)
    (hself : caseless oldName = caseless (c.getCanonicalName oldName)) (hsame : caseless oldName = caseless newName)
    (name : Name) : c.midSame oldName newName name = c.sameScreen (c.getCanonicalName oldName) name := by
  have hnew : (c.nameToCanonicalName.erase (c.getCanonicalName oldName)).contains newName = false := by
    rw [OrdMap.contains, OrdMap.find?_congr (hsame.symm.trans hself), ← OrdMap.contains]
    exact OrdMap.not_contains_erase _ _
  have hcanonical := h.caseless_canonical hscreen
  rw [midSame, sameScreen, decide_eq_decide, midResolve_new hnew hsame, ← hsame, ← hself]
  by_cases hname : caseless name = caseless newName
  · rw [midResolve_new hnew hname, getCanonicalName_congr (hname.trans (hsame.symm.trans hself)), hcanonical]
    exact iff_of_true hsame.symm hself.symm
  · rw [midResolve_other (fun heq => hname (heq.trans (hself.symm.trans hsame))) hname]

/-- Under a new name, the old one is unknown while the links are renamed. -/
lemma midSame_of_new (hself : caseless oldName = caseless (c.getCanonicalName oldName))
    (hne : caseless oldName ≠ caseless newName) {name : Name} :
    c.midSame oldName newName name = true ↔ c.midResolve oldName newName name = [] := by
  rw [midSame, decide_eq_true_eq, midResolve_old hself hne]
  exact caseless_eq_nil

lemma linkRenamed_of_respelled (h : Consistent c) (hd : c.renameScreen oldName newName = some d)
    (hself : caseless oldName = caseless (c.getCanonicalName oldName)) (hsame : caseless oldName = caseless newName)
    (link : CellEdge × CellEdge) :
    LinkRenamed c (c.getCanonicalName oldName) newName d link
      (link.1, if c.midSame oldName newName link.2.name then { link.2 with name := newName } else link.2) := by
  obtain ⟨hscreen, -⟩ := renameScreen_cases hd
  rw [midSame_of_respelled h hscreen hself hsame, LinkRenamed]
  split_ifs
  · refine ⟨?_, rfl⟩
    rw [renameScreen_resolve h hself hd]
    split_ifs with htarget
    · rfl
    · apply midResolve_new
      · rw [OrdMap.contains, OrdMap.find?_congr (hsame.symm.trans hself), ← OrdMap.contains]
        exact OrdMap.not_contains_erase _ _
      · rfl
  · rfl

lemma not_screen_newName (hd : c.renameScreen oldName newName = some d) (hne : caseless oldName ≠ caseless newName) :
    c.isScreen newName = false :=
  Bool.eq_false_iff.mpr fun hnew => hne ((renameScreen_cases hd).2.1 hnew)

lemma linkRenamed_of_new (h : Consistent c) (hd : c.renameScreen oldName newName = some d)
    (hself : caseless oldName = caseless (c.getCanonicalName oldName)) (hne : caseless oldName ≠ caseless newName)
    {link : CellEdge × CellEdge}
    (hlink : c.isScreen link.2.name = false → caseless link.2.name = caseless newName) :
    LinkRenamed c (c.getCanonicalName oldName) newName d link
      (link.1, if c.midSame oldName newName link.2.name then { link.2 with name := newName } else link.2) := by
  obtain ⟨hscreen, -⟩ := renameScreen_cases hd
  have hfree := not_screen_newName hd hne
  have hnew := not_contains_newName (.inl hself) (renameScreen_cases hd).2.1
  rw [LinkRenamed]
  rcases hname : c.isScreen link.2.name with _ | _
  · -- the link leads nowhere, before and after
    have hother : c.sameScreen (c.getCanonicalName oldName) link.2.name = false := by
      rw [sameScreen, decide_eq_false_iff_not, getCanonicalName_of_not_screen hname]
      exact fun heq => h.ne_nil_of_map hscreen (caseless_eq_nil.mp heq.symm)
    rw [if_neg (Bool.eq_false_iff.mp hother)]
    split_ifs with hsame
    · rw [midSame_of_new hself hne, midResolve_new hnew (hlink hname)] at hsame
      have hempty : link.2.name = newName := by
        have hcase := hlink hname
        rw [hsame] at hcase ⊢
        exact caseless_eq_nil.mp hcase
      rw [← hempty]
    · rfl
  · have hother : caseless link.2.name ≠ caseless newName := by
      intro heq
      rw [isScreen, OrdMap.contains, OrdMap.find?_congr heq, ← OrdMap.contains] at hname
      exact Bool.false_ne_true (hfree.symm.trans hname)
    by_cases hold : caseless link.2.name = caseless (c.getCanonicalName oldName)
    · have hsame : c.sameScreen (c.getCanonicalName oldName) link.2.name = true := by
        rw [sameScreen, decide_eq_true_eq, getCanonicalName_congr hold, h.caseless_canonical hscreen]
      rw [if_pos hsame, if_pos ((midSame_of_new hself hne).mpr (midResolve_old hold hother))]
      refine ⟨?_, rfl⟩
      rw [renameScreen_resolve h hself hd, midResolve_new hnew rfl, ite_self]
    · have hkept := midResolve_other hold hother
      rw [if_neg fun hsame => h.canonical_ne_nil hname (hkept.symm.trans ((midSame_of_new hself hne).mp hsame)),
        sameScreen]
      split_ifs with hsame
      · refine ⟨?_, rfl⟩
        rw [renameScreen_resolve h hself hd, hkept, if_pos (of_decide_eq_true hsame)]
      · rfl

/-- Where a link to an unknown name is taken for a link to the screen. -/
lemma not_linkRenamed_of_new (h : Consistent c) (hd : c.renameScreen oldName newName = some d)
    (hself : caseless oldName = caseless (c.getCanonicalName oldName)) (hne : caseless oldName ≠ caseless newName)
    {link : CellEdge × CellEdge} (hname : c.isScreen link.2.name = false)
    (hother : caseless link.2.name ≠ caseless newName) :
    ¬ LinkRenamed c (c.getCanonicalName oldName) newName d link
      (link.1, if c.midSame oldName newName link.2.name then { link.2 with name := newName } else link.2) := by
  obtain ⟨hscreen, -⟩ := renameScreen_cases hd
  have hnone := getCanonicalName_of_not_screen hname
  have hold : caseless link.2.name ≠ caseless (c.getCanonicalName oldName) := by
    intro heq
    rw [getCanonicalName_congr heq] at hnone
    exact h.canonical_ne_nil (h.isScreen_of_map hscreen) hnone
  have hsame : c.midSame oldName newName link.2.name = true :=
    (midSame_of_new hself hne).mpr ((midResolve_other hold hother).trans hnone)
  rw [LinkRenamed, if_pos hsame, sameScreen, hnone, if_neg]
  · intro heq
    have hlink := congrArg (fun link : CellEdge × CellEdge => link.2.name) heq
    exact hother (congrArg caseless hlink.symm)
  · rw [decide_eq_true_eq]
    exact fun heq => h.ne_nil_of_map hscreen (caseless_eq_nil.mp heq.symm)

lemma mem_map_renameScreen (h : Consistent c) (hd : c.renameScreen oldName newName = some d)
    (hself : caseless oldName = caseless (c.getCanonicalName oldName)) {e : Name × Cell} (he : e ∈ c.map.entries) :
    (if caseless e.1 = caseless (c.getCanonicalName oldName) then newName else e.1,
      e.2.rename (c.midSame oldName newName) newName) ∈ d.map.entries := by
  obtain ⟨cell, hcell, hmap⟩ := renameScreen_map hd
  have hnew : (c.map.erase (c.getCanonicalName oldName)).contains newName = false := by
    rw [← Bool.not_eq_true, OrdMap.contains_erase]
    rintro ⟨hcontains, hne⟩
    exact hne (((renameScreen_cases hd).2.1 (h.isScreen_of_map hcontains)).symm.trans hself)
  rw [hmap, OrdMap.mem_mapValues]
  split_ifs with hname
  · have hsame : cell = e.2 := by
      apply Option.some.inj
      rw [← hcell]
      exact OrdMap.find?_eq_some.mpr ⟨e.1, hname, he⟩
    exact ⟨(newName, cell), (OrdMap.mem_insert hnew).mpr (.inl rfl), by rw [hsame]⟩
  · exact ⟨e, (OrdMap.mem_insert hnew).mpr (.inr (OrdMap.mem_erase.mpr ⟨he, hname⟩)), rfl⟩

lemma forall₂_rename {R : CellEdge × CellEdge → CellEdge × CellEdge → Prop} {isOld : Name → Bool} {cell : Cell} :
    List.Forall₂ R cell.neighbors.entries (cell.rename isOld newName).neighbors.entries ↔
      ∀ link ∈ cell.neighbors.entries,
        R link (link.1, if isOld link.2.name then { link.2 with name := newName } else link.2) := by
  rw [Cell.rename, OrdMap.entries_mapValues, List.forall₂_map_right_iff, List.forall₂_same]

/-- An alias by which the screen was renamed still leads to the old name. -/
lemma alias_of_renameScreen (h : Consistent c) (hd : c.renameScreen oldName newName = some d)
    (hself : caseless oldName ≠ caseless (c.getCanonicalName oldName)) :
    ∃ e ∈ c.nameToCanonicalName.entries, caseless e.2 = caseless (c.getCanonicalName oldName) ∧
      caseless e.1 ≠ caseless (c.getCanonicalName oldName) ∧ d.getCanonicalName e.1 ≠ newName := by
  obtain ⟨hscreen, hfree, -, hnames⟩ := renameScreen_cases hd
  obtain ⟨e, he, hfirst⟩ := OrdMap.contains_iff.mp (h.isScreen_iff.mp hscreen)
  have htarget := getCanonicalName_of_entry he hfirst
  refine ⟨e, he, by rw [htarget], by rwa [hfirst], fun hnew => ?_⟩
  rw [if_neg hself] at hnames
  have herased : e ∈ (c.nameToCanonicalName.erase (c.getCanonicalName oldName)).entries :=
    OrdMap.mem_erase.mpr ⟨he, by rwa [hfirst]⟩
  have hkept : e ∈ d.nameToCanonicalName.entries := by
    rw [hnames]
    rcases hcontains : (c.nameToCanonicalName.erase (c.getCanonicalName oldName)).contains newName with _ | _
    · exact (OrdMap.mem_insert hcontains).mpr (.inr herased)
    · rw [OrdMap.insert_of_contains hcontains]
      exact herased
  rw [getCanonicalName_of_entry hkept rfl, ← htarget] at hnew
  rw [hnew] at hself hscreen
  exact hself (hfree (h.isScreen_of_map hscreen))

lemma renamed_of_renamesAll (h : Consistent c) (hd : c.renameScreen oldName newName = some d)
    (hall : RenamesAll c oldName newName) : Renamed c (c.getCanonicalName oldName) newName d := by
  obtain ⟨hself, hlinks⟩ := hall
  obtain ⟨hscreen, -, hmap, -⟩ := renameScreen_cases hd
  have hentries := fun {e} => mem_names_renameScreen (.inl hself) hd (e := e)
  refine ⟨hmap, ?_, ?_, ?_⟩
  · intro e he
    refine ⟨_, mem_map_renameScreen h hd hself he, rfl, forall₂_rename.mpr fun link hlink => ?_⟩
    by_cases hsame : caseless oldName = caseless newName
    · exact linkRenamed_of_respelled h hd hself hsame link
    · exact linkRenamed_of_new h hd hself hsame (hlinks.resolve_left hsame e he link hlink)
  · intro e he htarget hname
    have hmem : (e.1, newName) ∈ d.nameToCanonicalName.entries :=
      hentries.mpr (.inr ⟨e, he, hname, by rw [if_pos htarget]⟩)
    exact getCanonicalName_of_entry hmem rfl
  · intro e he htarget
    refine hentries.mpr (.inr ⟨e, he, fun hname => htarget ?_, by rw [if_neg htarget]⟩)
    rw [← getCanonicalName_of_entry he hname, h.caseless_canonical hscreen]

/-- All references to the screen are updated, and no others, exactly if the old name is the screen's own and, unless it
is only respelled, no link to an unknown name is there to be taken for one to it. -/
theorem renameScreen_iff (h : Consistent c) (hd : c.renameScreen oldName newName = some d) :
    Renamed c (c.getCanonicalName oldName) newName d ↔ RenamesAll c oldName newName := by
  refine ⟨fun hrenamed => ?_, renamed_of_renamesAll h hd⟩
  have hself : caseless oldName = caseless (c.getCanonicalName oldName) := by
    by_contra hself
    obtain ⟨e, he, htarget, hname, hstale⟩ := alias_of_renameScreen h hd hself
    exact hstale (hrenamed.aliases e he htarget hname)
  refine ⟨hself, or_iff_not_imp_left.mpr fun hne e he link hlink hname => ?_⟩
  by_contra hother
  obtain ⟨cell, hcell, -, hforall⟩ := hrenamed.cells e he
  have hentry := OrdMap.entry_unique hcell (mem_map_renameScreen h hd hself he) rfl
  obtain rfl := congrArg Prod.snd hentry
  exact not_linkRenamed_of_new h hd hself hne hname hother (forall₂_rename.mp hforall link hlink)

lemma consistent_iff : Consistent c ↔
    (∀ e ∈ c.nameToCanonicalName.entries, c.map.contains e.2 = true ∧ e.1 ≠ [] ∧ e.2 ≠ []) ∧
      ∀ e ∈ c.map.entries, ∃ f ∈ c.nameToCanonicalName.entries,
        caseless f.1 = caseless e.1 ∧ caseless f.2 = caseless e.1 := by
  constructor
  · intro h
    refine ⟨fun e he => ⟨h.known e he, h.nonempty e he⟩, fun e he => ?_⟩
    exact h.own e.1 (OrdMap.contains_iff.mpr ⟨e, he, rfl⟩)
  · rintro ⟨hnames, hmap⟩
    refine ⟨⟨fun e he => (hnames e he).1, fun name hname => ?_⟩, fun e he => (hnames e he).2⟩
    obtain ⟨e, he, hsame⟩ := OrdMap.contains_iff.mp hname
    rw [← hsame]
    exact hmap e he

def linkedScreens : Config :=
  let c := ofScreens [['p'], ['q']]
  let c := (c.addAlias ['p'] ['a']).getD c
  (c.connect ['q'] .right 0 1 ['a'] 0 1).getD c

theorem renameScreen_linkedScreens : ∃ d, linkedScreens.renameScreen ['p'] ['r'] = some d ∧
    (Renamed linkedScreens (linkedScreens.getCanonicalName ['p']) ['r'] d ↔
      RenamesAll linkedScreens ['p'] ['r']) := by
  have hrename : (linkedScreens.renameScreen ['p'] ['r']).isSome = true := by decide
  obtain ⟨d, hd⟩ := Option.isSome_iff_exists.mp hrename
  exact ⟨d, hd, renameScreen_iff (consistent_iff.mpr (by decide)) hd⟩

/-- Renamed by an alias, the screen can no longer be found by it. -/
theorem alias_left_behind : ¬ ∀ c oldName newName d, Consistent c → c.renameScreen oldName newName = some d →
    Renamed c (c.getCanonicalName oldName) newName d := by
  intro hall
  have hrename : (linkedScreens.renameScreen ['a'] ['r']).isSome = true := by decide
  obtain ⟨d, hd⟩ := Option.isSome_iff_exists.mp hrename
  have hrenamed := hall _ _ _ d (consistent_iff.mpr (by decide)) hd
  have hfound := hrenamed.aliases (['a'], ['p']) (by decide) (by decide) (by decide)
  have hstale : ((linkedScreens.renameScreen ['a'] ['r']).map fun d => d.getCanonicalName ['a']) = some ['p'] := by
    decide
  rw [hd, Option.map_some, hfound] at hstale
  exact absurd hstale (by decide)

end Renaming

section Removing

variable {name canonical : Name} {d : Config}

/-- The loop over the names in `removeScreen`, at the first of the entries given. Past a name of another screen it
advances an iterator of the map of screens instead. -/
def sweepNames (canonical : Name) : ℕ → OrdMap caseless Name → List (Name × Name) → Option (OrdMap caseless Name)
  | 0, _, _ => none
  | _ + 1, names, [] => some names
  | fuel + 1, names, e :: es =>
    if e.2 = canonical then sweepNames canonical fuel (names.erase e.1) es
    else sweepNames canonical fuel names (e :: es)

/-- `removeScreen` with its loop; a result of `none` means that `fuel` passes were not enough. -/
def removeScreenIn (fuel : ℕ) (c : Config) (name : Name) : Option Config :=
  let canonical := c.getCanonicalName name
  if c.map.contains canonical = false then some c
  else
    let c := { c with map := c.map.erase canonical }
    let resolved := c.getCanonicalName name
    let c := { c with map := c.map.mapValues fun cell => cell.removeLinks (c.sameScreen resolved) }
    (sweepNames canonical fuel c.nameToCanonicalName c.nameToCanonicalName.entries).map fun names =>
      { c with nameToCanonicalName := names }

/-- Of the screens, the names and the links, all are left that have nothing to do with the screen. -/
structure Removed (c : Config) (canonical : Name) (d : Config) : Prop where
  screens : ∀ f, f ∈ d.map.entries ↔ ∃ e ∈ c.map.entries, caseless e.1 ≠ caseless canonical ∧
    (e.1, e.2.removeLinks (c.sameScreen canonical)) = f
  names : ∀ e, e ∈ d.nameToCanonicalName.entries ↔
    e ∈ c.nameToCanonicalName.entries ∧ caseless e.2 ≠ caseless canonical

lemma sweepNames_eq_some {fuel : ℕ} {names names' : OrdMap caseless Name} {es : List (Name × Name)}
    (h : sweepNames canonical fuel names es = some names') :
    (∀ e ∈ es, e.2 = canonical) ∧
      ∀ e, e ∈ names'.entries ↔ e ∈ names.entries ∧ ∀ f ∈ es, caseless e.1 ≠ caseless f.1 := by
  induction fuel generalizing names es with
  | zero => cases h
  | succ fuel ih =>
    cases es with
    | nil => simp [← Option.some.inj h]
    | cons f es =>
      rw [sweepNames] at h
      split_ifs at h with hf
      · obtain ⟨htargets, hnames⟩ := ih h
        refine ⟨List.forall_mem_cons.mpr ⟨hf, htargets⟩, fun e => ?_⟩
        rw [hnames, OrdMap.mem_erase, List.forall_mem_cons, and_assoc]
      · exact absurd ((ih h).1 f List.mem_cons_self) hf

lemma sweepNames_ends {es : List (Name × Name)} (h : ∀ e ∈ es, e.2 = canonical) (names : OrdMap caseless Name) :
    ∃ names', sweepNames canonical (es.length + 1) names es = some names' := by
  induction es generalizing names with
  | nil => exact ⟨names, rfl⟩
  | cons e es ih =>
    obtain ⟨he, hes⟩ := List.forall_mem_cons.mp h
    rw [List.length_cons, sweepNames, if_pos he]
    exact ih hes _

/-- The loop ends exactly if there is no name of another screen, and then no name is left. -/
lemma sweepNames_iff {names names' : OrdMap caseless Name} :
    (∃ fuel, sweepNames canonical fuel names names.entries = some names') ↔
      (∀ e ∈ names.entries, e.2 = canonical) ∧ names' = .empty := by
  have hempty : ∀ {fuel names'}, sweepNames canonical fuel names names.entries = some names' → names' = .empty := by
    intro fuel names' hsweep
    apply OrdMap.ext_mem
    intro e
    rw [(sweepNames_eq_some hsweep).2 e]
    exact iff_of_false (fun he => he.2 e he.1 rfl) List.not_mem_nil
  constructor
  · rintro ⟨fuel, hsweep⟩
    exact ⟨(sweepNames_eq_some hsweep).1, hempty hsweep⟩
  · rintro ⟨hall, rfl⟩
    obtain ⟨names', hsweep⟩ := sweepNames_ends hall names
    exact ⟨_, hempty hsweep ▸ hsweep⟩

lemma removeScreenIn_iff : (∃ fuel, c.removeScreenIn fuel name = some d) ↔ c.removeScreen name = some d := by
  simp only [removeScreenIn, removeScreen]
  split_ifs with hscreen hall
  · exact exists_const ℕ
  · constructor
    · rintro ⟨fuel, hsome⟩
      obtain ⟨names, hsweep, rfl⟩ := Option.map_eq_some_iff.mp hsome
      rw [(sweepNames_iff.mp ⟨fuel, hsweep⟩).2]
    · intro hsome
      obtain ⟨fuel, hsweep⟩ := sweepNames_iff.mpr ⟨hall, rfl⟩
      refine ⟨fuel, ?_⟩
      rw [hsweep]
      exact hsome
  · apply iff_of_false
    · rintro ⟨fuel, hsome⟩
      obtain ⟨names, hsweep, -⟩ := Option.map_eq_some_iff.mp hsome
      exact hall (sweepNames_iff.mp ⟨fuel, hsweep⟩).1
    · exact fun hsome => hsome.elim

/-- A name is removed, with its screen and what refers to it, exactly if every name in the table leads to that screen in
one spelling: the screen is the only one. Otherwise the loop does not end. -/
theorem removeScreen_iff (h : Consistent c) (hname : c.isScreen name = true) :
    (∃ fuel d, c.removeScreenIn fuel name = some d ∧ Removed c (c.getCanonicalName name) d) ↔
      ∀ e ∈ c.nameToCanonicalName.entries, e.2 = c.getCanonicalName name := by
  have hscreen := h.isScreen_iff.mpr hname
  have hmeets : (∃ d, c.removeScreen name = some d) ↔
      ∀ e ∈ c.nameToCanonicalName.entries, e.2 = c.getCanonicalName name := by
    rw [removeScreen_isSome_iff, MeetsNames, hscreen]
    exact or_iff_right Bool.true_eq_false.mp
  rw [← hmeets]
  constructor
  · rintro ⟨fuel, d, hd, -⟩
    exact ⟨d, removeScreenIn_iff.mp ⟨fuel, hd⟩⟩
  · rintro ⟨d, hd⟩
    obtain ⟨fuel, hrun⟩ := removeScreenIn_iff.mpr hd
    refine ⟨fuel, d, hrun, ?_⟩
    have hall := hmeets.mp ⟨d, hd⟩
    simp only [removeScreen] at hd
    rw [if_neg (by rw [hscreen]; exact Bool.true_eq_false.mp), if_pos hall] at hd
    obtain rfl := Option.some.inj hd
    constructor
    · intro f
      simp only [OrdMap.mem_mapValues, OrdMap.mem_erase, and_assoc]
      rfl
    · intro e
      refine iff_of_false List.not_mem_nil ?_
      rintro ⟨he, hne⟩
      exact hne (congrArg caseless (hall e he))

def aliasedScreen : Config := ((ofScreens [['p']]).addAlias ['p'] ['a']).getD empty

theorem removeScreen_aliasedScreen :
    (∃ fuel d, aliasedScreen.removeScreenIn fuel ['a'] = some d ∧
      Removed aliasedScreen (aliasedScreen.getCanonicalName ['a']) d) ↔
      ∀ e ∈ aliasedScreen.nameToCanonicalName.entries, e.2 = aliasedScreen.getCanonicalName ['a'] :=
  removeScreen_iff (consistent_iff.mpr (by decide)) (by decide)

/-- Of two screens, none can be removed. -/
theorem removeScreen_endless : ¬ ∀ c name, Consistent c → c.isScreen name = true →
    ∃ fuel d, c.removeScreenIn fuel name = some d ∧ Removed c (c.getCanonicalName name) d := by
  intro hall
  obtain ⟨fuel, d, hd, -⟩ := hall (ofScreens [['p'], ['q']]) ['p'] (consistent_iff.mpr (by decide))
    (by decide)
  have hmeets := removeScreen_isSome_iff.mp ⟨d, removeScreenIn_iff.mp ⟨fuel, hd⟩⟩
  rcases hmeets with hnone | hone
  · exact absurd hnone (by decide)
  · exact absurd (hone (['q'], ['q']) (by decide)) (by decide)

end Removing

end Config

end InputLeap
