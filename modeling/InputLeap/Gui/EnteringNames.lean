import InputLeap.Gui.AppController
import InputLeap.Gui.ConfigOptions

/-! The names of the layout are names that the server reads, as long as each name that enters is one: the window itself
only takes off blanks and compares with the names of the other computers. -/

namespace InputLeap.Gui

open InputLeap.Lib InputLeap.Lib.Text
open Reading (IsInt32)

def Qt.FoldsAscii (qt : Qt) : Prop := ∀ c : Char, c.toNat < 128 → qt.foldCase c = c.toLower

structure Label where
  name : Name
  aliases : List Name
  cornerSize : ℤ
  deriving DecidableEq

namespace Label

def names (l : Label) : List Name := l.name :: l.aliases

structure Fits (l : Label) : Prop where
  valid : ∀ name ∈ l.names, Reading.isValidScreenName name = true
  distinct : l.names.Pairwise fun a b => caseless a ≠ caseless b
  notEnd : "end".toList ∉ l.aliases
  size : IsInt32 l.cornerSize

def Apart (k l : Label) : Prop := ∀ a ∈ k.names, ∀ b ∈ l.names, caseless a ≠ caseless b

lemma Apart.symm {k l : Label} (h : k.Apart l) : l.Apart k := fun a ha b hb => (h b hb a ha).symm

end Label

def ScreenConfig.label (s : ScreenConfig) : Label := ⟨s.name, s.aliases, s.cornerSize⟩

structure Readable (labels : List Label) : Prop where
  fits : ∀ l ∈ labels, l.Fits
  apart : labels.Pairwise Label.Apart

namespace Readable

variable {labels : List Label} {l : Label}

lemma sublist {labels' : List Label} (h : Readable labels) (hsub : labels'.Sublist labels) : Readable labels' :=
  ⟨fun l hl => h.fits l (hsub.subset hl), h.apart.sublist hsub⟩

lemma perm {labels' : List Label} (h : Readable labels) (hperm : labels.Perm labels') : Readable labels' :=
  ⟨fun l hl => h.fits l (hperm.mem_iff.mpr hl), (hperm.pairwise_iff Label.Apart.symm).mp h.apart⟩

lemma cons (h : Readable labels) (hl : l.Fits) (hapart : ∀ k ∈ labels, l.Apart k) : Readable (l :: labels) :=
  ⟨fun _ hk => (List.mem_cons.mp hk).elim (fun heq => heq ▸ hl) (h.fits _), List.pairwise_cons.mpr ⟨hapart, h.apart⟩⟩

lemma append_one (h : Readable labels) (hl : l.Fits) (hapart : ∀ k ∈ labels, l.Apart k) : Readable (labels ++ [l]) :=
  (h.cons hl hapart).perm (List.perm_append_singleton l labels).symm

lemma set {i : ℕ} (h : Readable labels) (hl : l.Fits) (hapart : ∀ k ∈ labels.eraseIdx i, l.Apart k) :
    Readable (labels.set i l) := by
  by_cases hi : i < labels.length
  · have hothers : Readable (labels.eraseIdx i) := h.sublist (List.eraseIdx_sublist labels i)
    exact (hothers.cons hl hapart).perm (List.set_perm_cons_eraseIdx hi l).symm
  · rw [List.set_eq_of_length_le (not_lt.mp hi)]
    exact h

end Readable

namespace LayoutModel

variable (m : LayoutModel)

def labels : List Label := m.screens.map ScreenConfig.label

variable {m}

lemma names_eq (m : LayoutModel) : m.names = m.labels.flatMap Label.names := by
  rw [labels, List.flatMap_map]
  rfl

lemma namesFit (h : Readable m.labels) : m.NamesFit := by
  constructor
  · intro name hname
    rw [names_eq] at hname
    obtain ⟨l, hl, hname⟩ := List.mem_flatMap.mp hname
    exact (h.fits l hl).valid name hname
  · rw [names_eq, List.pairwise_flatMap]
    exact ⟨fun l hl => (h.fits l hl).distinct, h.apart⟩

lemma mem_labels {s : ScreenConfig} (hs : s ∈ m.screens) : s.label ∈ m.labels := List.mem_map_of_mem hs

lemma readConfig_nameSections (resolves : Name → Bool) (h : Readable m.labels) :
    ∃ file, readConfig resolves (unlines m.nameSections) = .ok file ∧ file.config = m.named := by
  have hnames := namesFit h
  obtain ⟨screen, hscreens⟩ := @runFrom_screenSection m resolves hnames fun s hs => (h.fits _ (mem_labels hs)).size
  have hrun : ∃ screen', runFrom (Reading.next resolves) m.nameSections .start =
      some ⟨⟨⟨m.named, []⟩, none⟩, none, screen'⟩ := by
    rw [nameSections, runFrom_append, hscreens, Option.bind_some]
    rcases @runFrom_aliasSection m resolves hnames screen with ⟨-, haliases⟩ | ⟨hend, -⟩
    · exact haliases
    · exact absurd (fun s hs => (h.fits _ (mem_labels hs)).notEnd) hend
  obtain ⟨screen', hrun⟩ := hrun
  refine ⟨⟨⟨m.named, []⟩, none⟩, readConfig_eq_ok.mpr ⟨⟨⟨⟨m.named, []⟩, none⟩, none, screen'⟩, ?_, rfl, rfl⟩, rfl⟩
  rw [getlines_unlines (nameSections_ne_newline hnames)]
  exact hrun

section Labels

variable {qt : Qt} {i : ℕ} {s : ScreenConfig}

lemma recordSetup_frame (m : LayoutModel) : (m.recordSetup qt).screens = m.screens ∧ (m.recordSetup qt).store = m.store ∧
    (m.recordSetup qt).hotkeys = m.hotkeys := by
  rw [recordSetup]
  split <;> exact ⟨rfl, rfl, rfl⟩

lemma labels_save (m : LayoutModel) : (m.save qt).labels = m.labels := by
  rw [labels, labels, save]
  split
  · rfl
  · rw [(recordSetup_frame m).1]

lemma hotkeys_save (m : LayoutModel) : (m.save qt).hotkeys = m.hotkeys := by
  rw [save]
  split
  · rfl
  · exact (recordSetup_frame m).2.2

lemma labels_modify {f : ScreenConfig → ScreenConfig} (hi : m.screens[i]? = some s) :
    (m.modifyScreen i f).labels = m.labels.set i (f s).label := by
  rw [labels, labels, modifyScreen, List.modify_eq_set_getElem?, hi, ← List.map_set]
  rfl

lemma labels_modify_same {f : ScreenConfig → ScreenConfig} (hf : ∀ s, (f s).label = s.label) :
    (m.modifyScreen i f).labels = m.labels := by
  rw [labels, labels, modifyScreen]
  apply List.ext_getElem?
  intro j
  rw [List.getElem?_map, List.getElem?_map, List.getElem?_modify]
  cases m.screens[j]? with
  | none => rfl
  | some s =>
    dsimp only [Option.map_some, Option.map_eq_map]
    split_ifs
    · rw [hf]
    · rfl

lemma label_normaliseDisplays (s : ScreenConfig) : s.normaliseDisplays.label = s.label := by
  rw [ScreenConfig.normaliseDisplays]
  split <;> rfl

lemma label_newScreen (m : LayoutModel) (name : Name) : (m.newScreen qt name).label = ⟨name, [], 0⟩ := by
  rw [newScreen]
  split_ifs
  · rfl
  · exact label_normaliseDisplays _

end Labels

structure Held (m : LayoutModel) : Prop where
  readable : Readable m.labels
  stored : ∀ store ∈ m.store, Readable (store.screens.map ScreenConfig.label)

section Steps

variable {qt : Qt} {m' : LayoutModel}

lemma Held.congr (h : Held m) (hlabels : m'.labels = m.labels) (hstore : m'.store = m.store) : Held m' :=
  ⟨hlabels ▸ h.readable, hstore ▸ h.stored⟩

lemma held_save (h : Readable m.labels) : Held (m.save qt) := by
  refine ⟨(labels_save m).symm ▸ h, fun store hstore => ?_⟩
  rw [save] at hstore
  split at hstore
  · rename_i hnone
    simp [hnone] at hstore
  · obtain rfl := Option.some.inj hstore
    rw [(recordSetup_frame m).1]
    exact h

lemma Held.saveSame (h : Held m) (hlabels : m'.labels = m.labels) : Held (m'.save qt) :=
  held_save (hlabels ▸ h.readable)

lemma Held.moveTo (h : Held m) (index : ℕ) (x y : ℤ) : Held (m.moveTo qt index x y).1 := by
  rw [LayoutModel.moveTo]
  split
  · exact h
  · dsimp only
    split_ifs
    · exact h
    · exact h
    · exact h.saveSame (labels_modify_same fun _ => rfl)

lemma Held.applyGeometry (h : Held m) {index : ℕ} {probe : ScreenConfig}
    (hprobe : ∀ s, m.screens[index]? = some s → probe.label = s.label) : Held (m.applyGeometry qt index probe).1 := by
  rw [LayoutModel.applyGeometry]
  split
  · exact h
  · rename_i s hs
    have hset (screens : List ScreenConfig) (hscreens : screens.map ScreenConfig.label = m.labels) :
        (screens.set index probe).map ScreenConfig.label = m.labels := by
      rw [List.map_set, hscreens, hprobe s hs]
      apply List.ext_getElem?
      intro j
      rw [List.getElem?_set]
      split_ifs with hj hlen
      · rw [← hj, labels, List.getElem?_map, hs]
        rfl
      · rw [← hj, List.getElem?_eq_none (not_lt.mp hlen)]
      · rfl
    dsimp only
    split_ifs
    · apply h.saveSame
      apply hset
      rw [List.map_map]
      rfl
    · exact h.saveSame (hset _ rfl)
    · exact h

lemma Held.applyDisplays (h : Held m) (index : ℕ) (displays : List DisplayConfig) :
    Held (m.applyDisplays qt index displays).1 := by
  rw [LayoutModel.applyDisplays]
  split
  · exact h
  · rename_i s hs
    apply h.applyGeometry
    intro s' hs'
    obtain rfl : s = s' := Option.some.inj (hs.symm.trans hs')
    exact label_normaliseDisplays _

lemma Held.setScale (h : Held m) (index : ℕ) (percent : ℚ) : Held (m.setScale qt index percent).1 := by
  rw [LayoutModel.setScale]
  split
  · exact h
  · rename_i s hs
    exact h.applyGeometry fun s' hs' => Option.some.inj (hs.symm.trans hs') ▸ rfl

lemma Held.useMeasuredScale (h : Held m) (index : ℕ) : Held (m.useMeasuredScale qt index).1 := by
  rw [LayoutModel.useMeasuredScale]
  split
  · exact h
  · rename_i s hs
    dsimp only
    split_ifs
    · exact h
    · exact h.applyGeometry fun s' hs' => Option.some.inj (hs.symm.trans hs') ▸ rfl

lemma Held.useReportedDisplays (h : Held m) (index : ℕ) : Held (m.useReportedDisplays qt index).1 := by
  rw [LayoutModel.useReportedDisplays]
  split
  · exact h
  · dsimp only
    split_ifs
    · exact h
    · exact h.applyDisplays index _

lemma labels_clearAside (m : LayoutModel) (i : ℕ) : (m.clearAside i).labels = m.labels := by
  rw [clearAside]
  split
  · rfl
  · split_ifs
    · split
      · rfl
      · exact labels_modify_same fun _ => rfl
    · rfl

lemma Held.restoreSetup {index : ℕ} {displays : List DisplayConfig} (h : Held m)
    (hrestored : m.restoreSetup qt index displays = some m') : Held m' := by
  have hclear (rest : List ℕ) : ∀ m : LayoutModel, (rest.foldl clearAside m).labels = m.labels := by
    induction rest with
    | nil => exact fun _ => rfl
    | cons i rest ih => exact fun m => (ih _).trans (labels_clearAside m i)
  rw [LayoutModel.restoreSetup] at hrestored
  obtain ⟨changed, -, hrestored⟩ := Option.bind_eq_some_iff.mp hrestored
  obtain ⟨best, -, hrestored⟩ := Option.bind_eq_some_iff.mp hrestored
  obtain ⟨setup, -, rfl⟩ := Option.map_eq_some_iff.mp hrestored
  apply h.saveSame
  refine (hclear _ _).trans ?_
  rw [labels, labels, List.map_map]
  apply List.map_congr_left
  intro s _
  rw [Function.comp_apply, restoreScreen]
  split <;> rfl

lemma Held.switchSetup (h : Held m) (index : ℕ) (clean : List DisplayConfig) :
    Held (m.switchSetup qt index clean).1 := by
  rw [LayoutModel.switchSetup]
  split
  · rename_i hrestored
    exact h.restoreSetup hrestored
  · have hforgotten : Held { m with activeSetup := none } := h.congr rfl rfl
    have happlied : Held ({ m with activeSetup := none }.applyDisplays qt index clean).1 :=
      hforgotten.applyDisplays index clean
    split
    · rename_i hdisplays
      rw [hdisplays] at happlied
      exact happlied
    · exact h

lemma Held.reportDisplays (h : Held m) (name : Name) (displays : List DisplayConfig) :
    Held (m.reportDisplays qt name displays).1 := by
  have hreported : Held (m.insertReported name (cleanDisplays displays)) := h.congr rfl rfl
  rw [LayoutModel.reportDisplays]
  dsimp only
  split_ifs
  · exact h
  · split
    · exact hreported
    · split
      · exact hreported
      · split_ifs
        · exact hreported
        · exact hreported.switchSetup _ _
        · exact hreported.applyDisplays _ _

end Steps

section Entering

variable (qt : Qt) (m)

def NameFree (name : Name) : Prop :=
  Reading.isValidScreenName name = true ∧ ∀ s ∈ m.screens, ∀ a ∈ s.aliases, caseless a ≠ caseless name

instance (name : Name) : Decidable (m.NameFree name) := inferInstanceAs (Decidable (_ ∧ _))

def newName : LayoutOp → Option Name
  | .addScreen name _ _ | .addScreenAnywhere name | .placeNextTo name _ _ =>
    let trimmed := qt.trimmed name
    if trimmed = [] ∨ m.hasScreen qt trimmed then none else some trimmed
  | .renameScreen index name =>
    let trimmed := qt.trimmed name
    if trimmed = [] ∨ (m.indexOf qt trimmed).any (fun other => decide (other ≠ index)) then none else some trimmed
  | .setServerName name =>
    if m.indexOf qt m.serverName = none ∨ name = [] ∨ m.hasScreen qt name then none else some name
  | _ => none

def newAliases (settings : ScreenSettings) (s : ScreenConfig) : List Name :=
  (withSettings qt settings s).aliases

/-- Valid names, none of which is that of another computer, or the word that ends the section. -/
structure AliasesFree (index : ℕ) (s : ScreenConfig) (aliases : List Name) : Prop where
  valid : ∀ a ∈ aliases, Reading.isValidScreenName a = true
  distinct : (s.name :: aliases).Pairwise fun a b => caseless a ≠ caseless b
  notEnd : "end".toList ∉ aliases
  others : ∀ t ∈ m.screens.eraseIdx index, ∀ a ∈ aliases, ∀ b ∈ t.label.names, caseless a ≠ caseless b

instance (index : ℕ) (s : ScreenConfig) (aliases : List Name) : Decidable (m.AliasesFree index s aliases) :=
  decidable_of_iff
    ((∀ a ∈ aliases, Reading.isValidScreenName a = true) ∧
      ((s.name :: aliases).Pairwise fun a b => caseless a ≠ caseless b) ∧ "end".toList ∉ aliases ∧
      ∀ t ∈ m.screens.eraseIdx index, ∀ a ∈ aliases, ∀ b ∈ t.label.names, caseless a ≠ caseless b)
    ⟨fun h => ⟨h.1, h.2.1, h.2.2.1, h.2.2.2⟩, fun h => ⟨h.valid, h.distinct, h.notEnd, h.others⟩⟩

/-- The names that an operation brings into the layout are free, and numbers are those of `int`. -/
def NamesKept (op : LayoutOp) : Prop :=
  (∀ name ∈ m.newName qt op, m.NameFree name) ∧
    match op with
    | .setScreenSettings index settings =>
      (∀ s ∈ m.screens[index]?, m.AliasesFree index s (newAliases qt settings s)) ∧
        ∀ size ∈ settings.cornerSize, IsInt32 size
    | .adoptScreens other =>
      let adopted := (other.screens.filter fun s => !m.hasScreen qt s.name).map ScreenConfig.label
      Readable adopted ∧ ∀ k ∈ adopted, ∀ l ∈ m.labels, k.Apart l
    | _ => True

end Entering

section Steps

variable {qt : Qt} {name : Name}

lemma sameName_iff (hqt : qt.FoldsAscii) {a b : Name} (ha : Reading.isValidScreenName a = true)
    (hb : Reading.isValidScreenName b = true) : qt.sameName a b = true ↔ caseless a = caseless b := by
  have hfold {n : Name} (hn : Reading.isValidScreenName n = true) : n.map qt.foldCase = caseless n := by
    apply List.map_congr_left
    intro c hc
    have hchar := isNameChar_iff.mp ((isNameChar_of_valid hn).2 c hc)
    exact hqt c (by omega)
  rw [Qt.sameName, decide_eq_true_eq, hfold ha, hfold hb]

lemma indexOf_eq_none (hne : name ≠ []) : m.indexOf qt name = none ↔ ∀ s ∈ m.screens, qt.sameName s.name name = false := by
  rw [indexOf, if_neg hne, List.findIdx?_eq_none_iff]

lemma hasScreen_eq_false (hne : name ≠ []) : m.hasScreen qt name = false ↔ ∀ s ∈ m.screens, qt.sameName s.name name = false := by
  rw [hasScreen, Option.isSome_eq_false_iff, Option.isNone_iff_eq_none, indexOf_eq_none hne]

lemma NameFree.apart (hqt : qt.FoldsAscii) (h : Readable m.labels) (hfree : m.NameFree name) {s : ScreenConfig}
    (hs : s ∈ m.screens) (hnew : qt.sameName s.name name = false) :
    ∀ b ∈ s.label.names, caseless name ≠ caseless b := by
  intro b hb heq
  rcases List.mem_cons.mp hb with rfl | hb
  · have hsame := (sameName_iff hqt ((h.fits _ (mem_labels hs)).valid _ List.mem_cons_self) hfree.1).mpr heq.symm
    rw [ScreenConfig.label, hnew] at hsame
    simp at hsame
  · exact hfree.2 s hs b hb heq.symm

lemma fits_new (hvalid : Reading.isValidScreenName name = true) : Label.Fits ⟨name, [], 0⟩ where
  valid n hn := by
    rw [List.mem_singleton.mp hn]
    exact hvalid
  distinct := List.pairwise_singleton _ _
  notEnd := List.not_mem_nil
  size := isInt32_iff.mpr ⟨by simp, by simp⟩

lemma addScreen_cases (m : LayoutModel) (name : Name) (x y : ℤ) :
    (m.addScreen qt name x y).1 = m ∨ qt.trimmed name ≠ [] ∧ m.hasScreen qt (qt.trimmed name) = false ∧
      ∃ s : ScreenConfig, s.label = ⟨qt.trimmed name, [], 0⟩ ∧ (m.addScreen qt name x y).1 = (m.append s).save qt := by
  rw [addScreen]
  dsimp only
  split_ifs with htaken hoverlap
  · exact .inl rfl
  · exact .inl rfl
  · push Not at htaken
    refine .inr ⟨htaken.1, Bool.eq_false_iff.mpr htaken.2, { m.newScreen qt (qt.trimmed name) with x := x, y := y }, ?_, rfl⟩
    exact label_newScreen m _

lemma labels_append (s : ScreenConfig) : (m.append s).labels = m.labels ++ [s.label] := by
  rw [labels, append, List.map_append]
  rfl

lemma Held.addScreen (hqt : qt.FoldsAscii) (h : Held m) (x y : ℤ)
    (hfree : qt.trimmed name ≠ [] → m.hasScreen qt (qt.trimmed name) = false → m.NameFree (qt.trimmed name)) :
    Held (m.addScreen qt name x y).1 := by
  rcases @addScreen_cases qt m name x y with hsame | ⟨hne, hnew, s, hs, heq⟩
  · rw [hsame]
    exact h
  · rw [heq]
    have hname := hfree hne hnew
    apply held_save
    rw [labels_append, hs]
    apply h.readable.append_one (fits_new hname.1)
    intro l hl a ha
    obtain ⟨t, ht, rfl⟩ := List.mem_map.mp hl
    rw [List.mem_singleton.mp ha]
    exact hname.apart hqt h.readable ht ((hasScreen_eq_false hne).mp hnew t ht)

lemma Held.addScreenAnywhere (hqt : qt.FoldsAscii) (h : Held m)
    (hfree : qt.trimmed name ≠ [] → m.hasScreen qt (qt.trimmed name) = false → m.NameFree (qt.trimmed name)) :
    Held (m.addScreenAnywhere qt name).1 := by
  rw [LayoutModel.addScreenAnywhere]
  split
  · exact h.addScreen hqt _ _ hfree
  · exact h.addScreen hqt _ _ hfree

lemma Held.placeNextTo (hqt : qt.FoldsAscii) (h : Held m) (anchor : Name) (side : Side)
    (hfree : qt.trimmed name ≠ [] → m.hasScreen qt (qt.trimmed name) = false → m.NameFree (qt.trimmed name)) :
    Held (m.placeNextTo qt name anchor side).1 := by
  rw [LayoutModel.placeNextTo]
  split
  · exact h
  · dsimp only
    split_ifs
    · exact h
    · split
      · exact h
      · apply h.addScreen hqt
        rw [Qt.trimmed_trimmed]
        exact hfree

lemma Held.removeScreen (h : Held m) (index : ℕ) : Held (m.removeScreen qt index) := by
  rw [LayoutModel.removeScreen]
  split_ifs
  · exact held_save (h.readable.sublist ((List.eraseIdx_sublist m.screens index).map ScreenConfig.label))
  · exact h

lemma labels_eraseIdx (m : LayoutModel) (index : ℕ) :
    m.labels.eraseIdx index = (m.screens.eraseIdx index).map ScreenConfig.label := by
  rw [labels, List.eraseIdx_map]

lemma Held.others (h : Held m) {index : ℕ} {s : ScreenConfig} (hs : m.screens[index]? = some s) :
    ∀ t ∈ m.screens.eraseIdx index, s.label.Apart t.label := by
  obtain ⟨hlen, rfl⟩ := List.getElem?_eq_some_iff.mp hs
  have hperm := (List.getElem_cons_eraseIdx_perm hlen).map ScreenConfig.label
  intro t ht
  exact List.rel_of_pairwise_cons (h.readable.perm hperm.symm).apart (List.mem_map_of_mem ht)

lemma Held.rename (hqt : qt.FoldsAscii) (h : Held m) {index : ℕ} {s : ScreenConfig} (hs : m.screens[index]? = some s)
    (hfree : m.NameFree name) (hnew : ∀ t ∈ m.screens.eraseIdx index, qt.sameName t.name name = false) :
    Readable (m.labels.set index { s.label with name := name }) := by
  have hmem := List.mem_of_getElem? hs
  have hfits := h.readable.fits _ (mem_labels hmem)
  apply h.readable.set
  · refine ⟨fun n hn => ?_, List.pairwise_cons.mpr ⟨fun a ha => ?_, ?_⟩, hfits.notEnd, hfits.size⟩
    · rcases List.mem_cons.mp hn with rfl | hn
      · exact hfree.1
      · exact hfits.valid n (List.mem_cons_of_mem _ hn)
    · exact (hfree.2 s hmem a ha).symm
    · exact (List.pairwise_cons.mp hfits.distinct).2
  · rw [labels_eraseIdx]
    intro l hl a ha
    obtain ⟨t, ht, rfl⟩ := List.mem_map.mp hl
    rcases List.mem_cons.mp ha with rfl | ha
    · exact hfree.apart hqt h.readable (List.mem_of_mem_eraseIdx ht) (hnew t ht)
    · exact h.others hs t ht a (List.mem_cons_of_mem _ ha)

def Relabelled (qt : Qt) (m m' : LayoutModel) (index : ℕ) (l : Label) : Prop :=
  ∃ n : LayoutModel, m' = n.save qt ∧ n.labels = m.labels.set index l ∧ n.hotkeys = m.hotkeys

lemma Relabelled.held {m' : LayoutModel} {index : ℕ} {l : Label} (h : Relabelled qt m m' index l)
    (hreadable : Readable (m.labels.set index l)) : Held m' := by
  obtain ⟨n, rfl, hlabels, -⟩ := h
  exact held_save (hlabels ▸ hreadable)

lemma renameScreen_cases (m : LayoutModel) (index : ℕ) (name : Name) : (m.renameScreen qt index name).1 = m ∨
    ∃ s, m.screens[index]? = some s ∧ m.newName qt (.renameScreen index name) = some (qt.trimmed name) ∧
      Relabelled qt m (m.renameScreen qt index name).1 index { s.label with name := qt.trimmed name } := by
  rw [renameScreen]
  split
  · exact .inl rfl
  · rename_i s hs
    split
    · exact .inl rfl
    rename_i hempty
    split
    · exact .inl rfl
    · rename_i hother
      refine .inr ⟨s, hs, by rw [newName, if_neg (not_or.mpr ⟨hempty, hother⟩)], _, rfl, ?_, ?_⟩
      · split_ifs
        · exact labels_modify hs
        · exact labels_modify hs
      · split_ifs <;> rfl

lemma setServerName_cases (m : LayoutModel) (name : Name) :
    ((m.setServerName qt name).labels = m.labels ∧ (m.setServerName qt name).store = m.store ∧
      (m.setServerName qt name).hotkeys = m.hotkeys) ∨
    ∃ i s, m.indexOf qt m.serverName = some i ∧ m.screens[i]? = some s ∧
      m.newName qt (.setServerName name) = some name ∧
      Relabelled qt m (m.setServerName qt name) i { s.label with name := name } := by
  rw [setServerName]
  split
  · exact .inl ⟨rfl, rfl, rfl⟩
  · dsimp only
    split
    · rename_i old hold
      split
      · rename_i hnew
        obtain ⟨hempty, hnone⟩ := hnew
        have hlen : old < m.screens.length := by
          have hfound := hold
          rw [indexOf] at hfound
          split_ifs at hfound
          exact (List.findIdx?_eq_some_iff_getElem.mp hfound).1
        have hs := List.getElem?_eq_getElem hlen
        exact .inr ⟨old, _, hold, hs, by simp [newName, hold, hempty, hasScreen, hnone], _, rfl, labels_modify hs, rfl⟩
      · exact .inl ⟨rfl, rfl, rfl⟩
    · exact .inl ⟨rfl, rfl, rfl⟩

lemma setScreenSettings_cases (m : LayoutModel) (index : ℕ) (settings : ScreenSettings) :
    (m.setScreenSettings qt index settings).1 = m ∨ ∃ s, m.screens[index]? = some s ∧
      Relabelled qt m (m.setScreenSettings qt index settings).1 index
        ⟨s.name, newAliases qt settings s, settings.cornerSize.elim s.cornerSize (max 0)⟩ := by
  rw [setScreenSettings]
  split
  · exact .inl rfl
  · rename_i s hs
    split
    · exact .inr ⟨s, hs, _, rfl, labels_modify hs, rfl⟩
    · dsimp only
      split_ifs
      · exact .inl rfl
      · exact .inr ⟨s, hs, _, rfl, labels_modify hs, rfl⟩

lemma Held.renameScreen (hqt : qt.FoldsAscii) (h : Held m) (index : ℕ)
    (hfree : ∀ n ∈ m.newName qt (.renameScreen index name), m.NameFree n) : Held (m.renameScreen qt index name).1 := by
  rcases @renameScreen_cases qt m index name with hsame | ⟨s, hs, hnew, hrenamed⟩
  · rw [hsame]
    exact h
  · have hname : m.NameFree (qt.trimmed name) := hfree _ hnew
    have htaken : ¬(qt.trimmed name = [] ∨ (m.indexOf qt (qt.trimmed name)).any (fun other => decide (other ≠ index))) := by
      rw [newName] at hnew
      split_ifs at hnew with htaken
      exact htaken
    obtain ⟨hempty, hother⟩ := not_or.mp htaken
    apply hrenamed.held
    apply h.rename hqt hs hname
    intro t ht
    cases hfound : m.indexOf qt (qt.trimmed name) with
    | none => exact (indexOf_eq_none hempty).mp hfound t (List.mem_of_mem_eraseIdx ht)
    | some i =>
      -- the computer itself is found by the name
      obtain rfl : i = index := by simpa [hfound] using hother
      rw [indexOf, if_neg hempty, List.findIdx?_eq_some_iff_getElem] at hfound
      obtain ⟨hlen, hsame, -⟩ := hfound
      obtain rfl : m.screens[i] = s := Option.some.inj ((List.getElem?_eq_getElem hlen).symm.trans hs)
      rw [← Bool.not_eq_true, sameName_iff hqt _ hname.1]
      · rw [← (sameName_iff hqt _ hname.1).mp hsame]
        · exact (h.others hs t ht _ List.mem_cons_self _ List.mem_cons_self).symm
        · exact (h.readable.fits _ (mem_labels (List.mem_of_getElem? hs))).valid _ List.mem_cons_self
      · exact (h.readable.fits _ (mem_labels (List.mem_of_mem_eraseIdx ht))).valid _ List.mem_cons_self

lemma Held.setServerName (hqt : qt.FoldsAscii) (h : Held m)
    (hfree : ∀ n ∈ m.newName qt (.setServerName name), m.NameFree n) : Held (m.setServerName qt name) := by
  rcases @setServerName_cases qt m name with ⟨hlabels, hstore, -⟩ | ⟨i, s, -, hs, hnew, hrenamed⟩
  · exact h.congr hlabels hstore
  · have hname : m.NameFree name := hfree _ hnew
    have htaken : ¬(m.indexOf qt m.serverName = none ∨ name = [] ∨ m.hasScreen qt name) := by
      rw [newName] at hnew
      split_ifs at hnew with htaken
      exact htaken
    obtain ⟨-, hempty, hscreen⟩ := not_or.mp htaken |>.imp_right not_or.mp
    have hothers := (hasScreen_eq_false hempty).mp (Bool.eq_false_iff.mpr hscreen)
    apply hrenamed.held
    exact h.rename hqt hs hname fun t ht => hothers t (List.mem_of_mem_eraseIdx ht)

lemma Held.setScreenSettings (h : Held m) (index : ℕ) (settings : ScreenSettings)
    (hkept : m.NamesKept qt (.setScreenSettings index settings)) : Held (m.setScreenSettings qt index settings).1 := by
  obtain ⟨-, haliases, hsize⟩ := hkept
  rcases @setScreenSettings_cases qt m index settings with hsame | ⟨s, hs, hset⟩
  · rw [hsame]
    exact h
  · have hfits := h.readable.fits _ (mem_labels (List.mem_of_getElem? hs))
    have hfree : m.AliasesFree index s (newAliases qt settings s) := haliases s hs
    apply hset.held
    apply h.readable.set
    · refine ⟨fun n hn => ?_, hfree.distinct, hfree.notEnd, ?_⟩
      · rcases List.mem_cons.mp hn with rfl | hn
        · exact hfits.valid _ List.mem_cons_self
        · exact hfree.valid n hn
      · cases hcase : settings.cornerSize with
        | none => exact hfits.size
        | some size =>
          have hint := isInt32_iff.mp (hsize size hcase)
          exact isInt32_iff.mpr ⟨by simp only [Option.elim]; omega, by simp only [Option.elim]; omega⟩
    · rw [labels_eraseIdx]
      intro k hk a ha
      obtain ⟨t, ht, rfl⟩ := List.mem_map.mp hk
      rcases List.mem_cons.mp ha with rfl | ha
      · exact h.others hs t ht _ List.mem_cons_self
      · exact hfree.others t ht a ha

lemma Held.setDisplays (h : Held m) (index : ℕ) (displays : List DisplayConfig) :
    Held (m.setScreenSettings qt index (onlyDisplays displays)).1 := by
  apply h.setScreenSettings
  refine ⟨by simp [newName], fun s hs => ?_, by simp [onlyDisplays]⟩
  have hfits := h.readable.fits _ (mem_labels (List.mem_of_getElem? hs))
  refine ⟨fun a ha => hfits.valid a (List.mem_cons_of_mem _ ha), hfits.distinct, hfits.notEnd, fun t ht a ha => ?_⟩
  exact h.others hs t ht a (List.mem_cons_of_mem _ ha)

lemma Held.addDisplay (h : Held m) (index : ℕ) : Held (m.addDisplay qt index).1 := by
  rw [LayoutModel.addDisplay]
  split
  · exact h
  · exact h.setDisplays index _

lemma Held.removeDisplay (h : Held m) (index display : ℕ) : Held (m.removeDisplay qt index display).1 := by
  rw [LayoutModel.removeDisplay]
  split
  · exact h
  · split_ifs
    · exact h
    · exact h.setDisplays index _

lemma labels_appendClear (m : LayoutModel) (s : ScreenConfig) : (m.appendClear s).labels = m.labels ++ [s.label] := by
  rw [appendClear]
  split
  · exact labels_append s
  · rw [labels_append]
    split_ifs <;> rfl

lemma labels_adoptScreen (m : LayoutModel) (shift : ℤ × ℤ) (s : ScreenConfig) :
    (m.adoptScreen qt shift s).labels = if m.hasScreen qt s.name then m.labels else m.labels ++ [s.label] := by
  rw [adoptScreen]
  split_ifs
  · rfl
  · rw [labels_appendClear]
    split_ifs <;> rfl

lemma hasScreen_eq (m : LayoutModel) (name : Name) :
    m.hasScreen qt name = (decide (name ≠ []) && m.labels.any fun l => qt.sameName l.name name) := by
  rw [hasScreen, indexOf, labels, List.any_map]
  by_cases hempty : name = []
  · simp [hempty]
  · rw [if_neg hempty, List.findIdx?_isSome, decide_eq_true hempty, Bool.true_and]
    rfl

lemma labels_foldl_adoptScreen (shift : ℤ × ℤ) (screens : List ScreenConfig) (m : LayoutModel) :
    ∃ adopted, (screens.foldl (fun m' s => m'.adoptScreen qt shift s) m).labels = m.labels ++ adopted ∧
      adopted.Sublist ((screens.filter fun s => !m.hasScreen qt s.name).map ScreenConfig.label) := by
  induction screens generalizing m with
  | nil => exact ⟨[], (List.append_nil _).symm, List.Sublist.refl _⟩
  | cons s screens ih =>
    obtain ⟨adopted, hlabels, hsub⟩ := ih (m.adoptScreen qt shift s)
    have hmono : (screens.filter fun t => !(m.adoptScreen qt shift s).hasScreen qt t.name).Sublist
        (screens.filter fun t => !m.hasScreen qt t.name) := by
      apply List.monotone_filter_right
      intro t ht
      rw [Bool.not_eq_true', hasScreen_eq, labels_adoptScreen] at ht
      rw [Bool.not_eq_true', hasScreen_eq]
      split_ifs at ht
      · exact ht
      · rw [List.any_append, Bool.and_or_distrib_left, Bool.or_eq_false_iff] at ht
        exact ht.1
    have hsub' := hsub.trans (hmono.map ScreenConfig.label)
    rw [labels_adoptScreen] at hlabels
    rw [List.foldl_cons, List.filter_cons]
    split_ifs at hlabels with hhas
    · refine ⟨adopted, hlabels, ?_⟩
      rw [hhas]
      exact hsub'
    · refine ⟨s.label :: adopted, by rw [hlabels, List.append_assoc]; rfl, ?_⟩
      rw [Bool.eq_false_iff.mpr hhas]
      exact hsub'.cons_cons s.label

lemma Held.adoptScreens (h : Held m) (other : LayoutModel) (hkept : m.NamesKept qt (.adoptScreens other)) :
    Held (m.adoptScreens qt other) := by
  obtain ⟨-, hadopted, hapart⟩ := hkept
  rw [LayoutModel.adoptScreens]
  split_ifs
  · obtain ⟨adopted, hlabels, hsub⟩ := labels_foldl_adoptScreen (m.adoptShift qt other) other.screens m
    apply held_save
    rw [hlabels]
    refine ⟨fun l hl => ?_, List.pairwise_append.mpr ⟨h.readable.apart, hadopted.apart.sublist hsub, fun l hl k hk => ?_⟩⟩
    · rcases List.mem_append.mp hl with hl | hl
      · exact h.readable.fits l hl
      · exact hadopted.fits l (hsub.subset hl)
    · exact (hapart k (hsub.subset hk) l hl).symm
  · exact h

lemma labels_foldl_load (screens : List ScreenConfig) (m : LayoutModel) :
    ∃ loaded, (screens.foldl (fun m s => if s.name = [] ∨ m.hasScreen qt s.name then m else m.append (loadScreen s)) m).labels =
      m.labels ++ loaded ∧ loaded.Sublist (screens.map ScreenConfig.label) := by
  induction screens generalizing m with
  | nil => exact ⟨[], (List.append_nil _).symm, List.Sublist.refl _⟩
  | cons s screens ih =>
    rw [List.foldl_cons, List.map_cons]
    split_ifs
    · obtain ⟨loaded, hlabels, hsub⟩ := ih m
      exact ⟨loaded, hlabels, hsub.cons _⟩
    · obtain ⟨loaded, hlabels, hsub⟩ := ih (m.append (loadScreen s))
      have hlabel : (loadScreen s).label = s.label := label_normaliseDisplays _
      rw [labels_append, hlabel, List.append_assoc] at hlabels
      exact ⟨s.label :: loaded, hlabels, hsub.cons_cons _⟩

lemma Held.restart (h : Held m) : Held (m.restart qt) := by
  rw [LayoutModel.restart, load]
  split
  · exact ⟨⟨by simp [labels, empty], by simp [labels, empty]⟩, h.stored⟩
  · rename_i store hstore
    have hstore' : m.store = some store := hstore
    have hstored := h.stored store hstore'
    constructor
    · obtain ⟨loaded, hlabels, hsub⟩ := @labels_foldl_load qt store.screens
        { ({ empty m.store with options := m.options, hotkeys := m.hotkeys } : LayoutModel) with screens := [] }
      have hloaded : Readable (loadScreens qt { empty m.store with options := m.options, hotkeys := m.hotkeys }
          store.screens).labels := by
        rw [loadScreens, hlabels]
        exact hstored.sublist hsub
      exact hloaded
    · intro store' hmem
      change (loadScreens qt _ store.screens).store = some store' at hmem
      rw [frame_loadScreens] at hmem
      exact h.stored store' hmem

lemma Held.apply (hqt : qt.FoldsAscii) {op : LayoutOp} (h : Held m) (hkept : m.NamesKept qt op) : Held (m.apply qt op) := by
  have hadd (name : Name) (hfree : ∀ n ∈ (if qt.trimmed name = [] ∨ m.hasScreen qt (qt.trimmed name) then none
      else some (qt.trimmed name)), m.NameFree n) : qt.trimmed name ≠ [] → m.hasScreen qt (qt.trimmed name) = false →
        m.NameFree (qt.trimmed name) := by
    intro hne hnew
    exact hfree _ (by rw [if_neg (by simp [hne, hnew])]; rfl)
  cases op with
  | addScreen name x y => exact h.addScreen hqt x y (hadd name hkept.1)
  | addScreenAnywhere name => exact h.addScreenAnywhere hqt (hadd name hkept.1)
  | placeNextTo name anchor side => exact h.placeNextTo hqt anchor side (hadd name hkept.1)
  | adoptScreens other => exact h.adoptScreens other hkept
  | moveTo index x y => exact h.moveTo index x y
  | setScreenSettings index settings => exact h.setScreenSettings index settings hkept
  | addDisplay index => exact h.addDisplay index
  | removeDisplay index display => exact h.removeDisplay index display
  | setScale index percent => exact h.setScale index percent
  | useMeasuredScale index => exact h.useMeasuredScale index
  | reportDisplays name displays => exact h.reportDisplays name displays
  | useReportedDisplays index => exact h.useReportedDisplays index
  | renameScreen index name => exact h.renameScreen hqt index hkept.1
  | removeScreen index => exact h.removeScreen index
  | setServerName name => exact h.setServerName hqt hkept.1
  | restart => exact h.restart

end Steps

end LayoutModel

namespace Label

instance (l : Label) : Decidable l.Fits :=
  decidable_of_iff
    ((∀ name ∈ l.names, Reading.isValidScreenName name = true) ∧ (l.names.Pairwise fun a b => caseless a ≠ caseless b) ∧
      "end".toList ∉ l.aliases ∧ (BitVec.ofInt 32 l.cornerSize).toInt = l.cornerSize)
    ⟨fun h => ⟨h.1, h.2.1, h.2.2.1, h.2.2.2⟩, fun h => ⟨h.valid, h.distinct, h.notEnd, h.size⟩⟩

instance (k l : Label) : Decidable (k.Apart l) := inferInstanceAs (Decidable (∀ a ∈ k.names, ∀ b ∈ l.names, _))

instance (labels : List Label) : Decidable (Readable labels) :=
  decidable_of_iff ((∀ l ∈ labels, l.Fits) ∧ labels.Pairwise Apart)
    ⟨fun h => ⟨h.1, h.2⟩, fun h => ⟨h.fits, h.apart⟩⟩

end Label

section Decide

variable (qt : Qt)

instance (size : ℤ) : Decidable (IsInt32 size) := inferInstanceAs (Decidable (_ = _))

instance : ∀ (m : LayoutModel) (op : LayoutOp), Decidable (m.NamesKept qt op)
  | _, .setScreenSettings .. | _, .adoptScreens _ => inferInstanceAs (Decidable (_ ∧ _ ∧ _))
  | _, .addScreen .. | _, .addScreenAnywhere _ | _, .placeNextTo .. | _, .moveTo .. | _, .addDisplay _
  | _, .removeDisplay .. | _, .setScale .. | _, .useMeasuredScale _ | _, .reportDisplays .. | _, .useReportedDisplays _
  | _, .renameScreen .. | _, .removeScreen _ | _, .setServerName _ | _, .restart => inferInstanceAs (Decidable (_ ∧ True))

end Decide

namespace AppController

section Kept

variable (qt : Qt) (c : AppController)

def ServerKept : Prop :=
  c.layout.NamesKept qt (.setServerName c.screenName) ∧
    (c.layout.setServerName qt c.screenName).NamesKept qt
      (.addScreenAnywhere (c.layout.setServerName qt c.screenName).serverName)

def SpellingKept (self : Name) : Prop := ∀ i ∈ c.spelledAs qt self, c.layout.NamesKept qt (.renameScreen i self)

/-- Names that enter the layout are valid, and no other name of a computer. -/
def Kept : ControllerOp → Prop
  | .autoPlace name =>
    c.ignores qt name = true ∨ c.ServerKept qt ∧ (c.withServer qt).NamesKept qt (.addScreenAnywhere name)
  | .placeJoin name _ => c.ServerKept qt ∧ (c.withServer qt).NamesKept qt (.addScreenAnywhere name)
  | .ignoreJoin _ => True
  | .adoptSelfNames selfNames =>
    c.isServer = false ∨ Along (fun c self => some (c.adoptSelfName qt self)) (SpellingKept qt) selfNames c
  | .screenNameChanged name => c.layout.NamesKept qt (.setServerName name)
  | .migrateConfigFile fromFile => c.ServerKept qt ∧ (c.withServer qt).NamesKept qt (.adoptScreens fromFile)
  | .edit op => c.layout.NamesKept qt op

instance : Decidable (c.ServerKept qt) := inferInstanceAs (Decidable (_ ∧ _))

instance (self : Name) : Decidable (c.SpellingKept qt self) := inferInstanceAs (Decidable (∀ i ∈ c.spelledAs qt self, _))

instance : ∀ (c : AppController) (op : ControllerOp), Decidable (c.Kept qt op)
  | _, .autoPlace _ => inferInstanceAs (Decidable (_ ∨ _ ∧ _))
  | _, .placeJoin .. => inferInstanceAs (Decidable (_ ∧ _))
  | _, .ignoreJoin _ => .isTrue trivial
  | _, .adoptSelfNames _ => inferInstanceAs (Decidable (_ ∨ _))
  | c, .screenNameChanged name => inferInstanceAs (Decidable (c.layout.NamesKept qt (.setServerName name)))
  | _, .migrateConfigFile _ => inferInstanceAs (Decidable (_ ∧ _))
  | c, .edit op => inferInstanceAs (Decidable (c.layout.NamesKept qt op))

end Kept

section Steps

variable {qt : Qt} {c : AppController}

open LayoutModel (Held)

lemma held_withServer (hqt : qt.FoldsAscii) (h : Held c.layout) (hkept : c.ServerKept qt) : Held (c.withServer qt) := by
  have hnamed := h.apply hqt hkept.1
  rw [withServer, LayoutModel.ensureServerPlaced]
  split_ifs
  · exact hnamed
  · exact hnamed.apply hqt hkept.2

lemma placeNextTo_false {m m' : LayoutModel} {name anchor : Name} {side : Side}
    (h : m.placeNextTo qt name anchor side = (m', false)) : m' = m := by
  rw [LayoutModel.placeNextTo] at h
  split at h
  · exact (Prod.mk.inj h).1.symm
  · dsimp only at h
    split_ifs at h
    · exact (Prod.mk.inj h).1.symm
    · split at h
      · exact (Prod.mk.inj h).1.symm
      · rw [LayoutModel.addScreen] at h
        split at h
        · exact (Prod.mk.inj h).1.symm
        · dsimp only at h
          split at h
          · exact (Prod.mk.inj h).1.symm
          · simp at h

lemma held_placed (hqt : qt.FoldsAscii) {m : LayoutModel} {name : Name} (h : Held m)
    (hkept : m.NamesKept qt (.addScreenAnywhere name)) (anchor : Name) (side : Side) : Held (m.placeNextTo qt name anchor side).1 ∧
      ((m.placeNextTo qt name anchor side).2 = false →
        Held ((m.placeNextTo qt name anchor side).1.addScreenAnywhere qt name).1) := by
  have happlied : Held (m.apply qt (.placeNextTo name anchor side)) := h.apply hqt hkept
  refine ⟨happlied, fun hfalse => ?_⟩
  have hsame : (m.placeNextTo qt name anchor side).1 = m := placeNextTo_false (Prod.ext rfl hfalse)
  rw [hsame]
  exact h.apply hqt hkept

lemma Kept.held (hqt : qt.FoldsAscii) {op : ControllerOp} (h : Held c.layout) (hkept : c.Kept qt op) :
    Held (c.apply qt op).layout := by
  cases op with
  | autoPlace name =>
    rw [apply, autoPlace]
    split_ifs with hignored
    · exact h
    · obtain ⟨hserver, hname⟩ := hkept.resolve_left hignored
      obtain ⟨hplaced, hanywhere⟩ := held_placed hqt (held_withServer hqt h hserver) hname c.screenName .right
      split
      · rename_i heq
        rw [heq] at hplaced
        exact hplaced
      · rename_i heq
        rw [heq] at hanywhere
        exact hanywhere rfl
  | placeJoin name direction =>
    obtain ⟨hserver, hname⟩ := hkept
    have hwith := held_withServer hqt h hserver
    rw [apply, placeJoin]
    cases direction with
    | none => exact hwith.apply hqt hname
    | some side =>
      obtain ⟨hplaced, hanywhere⟩ := held_placed hqt hwith hname c.screenName side
      rw [Option.map_some]
      split
      · rename_i heq
        rw [Option.some.inj heq] at hplaced
        exact hplaced
      · rename_i heq
        rw [Option.some.inj heq] at hanywhere
        exact hanywhere rfl
      · rename_i heq
        simp at heq
  | ignoreJoin name => exact h
  | adoptSelfNames selfNames =>
    rw [apply, adoptSelfNames]
    split_ifs with hrole
    · have halong := hkept.resolve_left (by simp [hrole])
      clear hkept hrole
      induction selfNames generalizing c with
      | nil => exact h
      | cons self selfNames ih =>
        refine ih ?_ (halong.2 _ rfl)
        have hspelled := halong.1
        rw [adoptSelfName]
        split
        · exact h
        · rename_i i hi
          exact h.apply hqt (hspelled i hi)
    · exact h
  | screenNameChanged name => exact h.apply hqt hkept
  | migrateConfigFile fromFile => exact (held_withServer hqt h hkept.1).apply hqt hkept.2
  | edit op => exact h.apply hqt hkept

end Steps

theorem names_readable (qt : Qt) (hqt : qt.FoldsAscii) (resolves : Name → Bool) (c : AppController)
    (hrun : Reachable Initial (next qt) (Kept qt) c) :
    c.layout.NamesFit ∧ ∃ file, readConfig resolves (unlines c.layout.nameSections) = .ok file := by
  have hheld : LayoutModel.Held c.layout := by
    refine hrun.invariant (I := fun c => LayoutModel.Held c.layout) (fun c h => ?_) fun c op t h hkept hnext => ?_
    · rcases h with h | h
      · rw [h]
        exact ⟨⟨by simp [LayoutModel.labels, LayoutModel.empty], by simp [LayoutModel.labels, LayoutModel.empty]⟩,
          by simp [LayoutModel.empty]⟩
      · rw [h]
        refine ⟨⟨by simp [LayoutModel.labels, LayoutModel.empty], by simp [LayoutModel.labels, LayoutModel.empty]⟩, ?_⟩
        intro store hstore
        cases hstore
        exact ⟨by simp [LayoutModel.emptyStore], by simp [LayoutModel.emptyStore]⟩
    · rw [← Option.some.inj hnext]
      exact hkept.held hqt h
  obtain ⟨file, hfile, -⟩ := LayoutModel.readConfig_nameSections resolves hheld.readable
  exact ⟨LayoutModel.namesFit hheld.readable, file, hfile⟩

def opened : AppController := ⟨true, "desk".toList, [], LayoutModel.empty (some LayoutModel.emptyStore)⟩

def noSettings : LayoutModel.ScreenSettings := ⟨none, none, none, none, none, none⟩

theorem names_readable_joined : ∃ c : AppController, c.layout.names = ["desk".toList, "Mac".toList, "laptop".toList] ∧
    c.layout.NamesFit ∧ ∃ file, readConfig (fun _ => true) (unlines c.layout.nameSections) = .ok file := by
  have hreached : ∃ c, Reachable Initial (next LayoutModel.asciiQt) (Kept LayoutModel.asciiQt) c ∧
      c.layout.names = ["desk".toList, "Mac".toList, "laptop".toList] := by
    refine Reachable.exists_of_run (s := opened) (.inr rfl)
      [.screenNameChanged "desk".toList, .autoPlace "mac".toList,
        .edit (.setScreenSettings 1 { noSettings with aliases := some ["laptop".toList] }),
        .adoptSelfNames ["Mac".toList], .edit .restart] (by decide)
  obtain ⟨c, hrun, hnames⟩ := hreached
  exact ⟨c, hnames, names_readable LayoutModel.asciiQt (fun _ _ => rfl) (fun _ => true) c hrun⟩

/-- The name that discovery finds is a sentence. -/
theorem names_unreadable :
    ¬∀ c, Reachable Initial (next LayoutModel.asciiQt) (fun _ _ => True) c → c.layout.NamesFit ∧
      ∃ file, readConfig (fun _ => true) (unlines c.layout.nameSections) = .ok file := by
  intro h
  obtain ⟨c, hrun, hbad⟩ : ∃ c, Reachable Initial (next LayoutModel.asciiQt) (fun _ _ => True) c ∧
      ¬∀ name ∈ c.layout.names, Reading.isValidScreenName name = true :=
    Reachable.exists_of_run (s := opened) (.inr rfl) [.autoPlace "Ann's laptop".toList] (by decide)
  exact hbad (h c hrun).1.valid

end AppController

end InputLeap.Gui
