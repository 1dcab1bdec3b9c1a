import InputLeap.Gui.HotkeyNames
import InputLeap.Gui.Reopened

/-! What is done to a layout leaves the computers apart by their names and the scales within their bounds, here and in the
setups that are kept. -/

namespace InputLeap.Gui

open InputLeap.Lib

lemma qBound_bounds {low high : ℤ} (h : low ≤ high) (value : ℤ) : low ≤ qBound low value high ∧ qBound low value high ≤ high :=
  ⟨le_max_left _ _, max_le h (min_le_right _ _)⟩

lemma kMinScale_le : kMinScale ≤ kMaxScale := by decide

namespace LayoutModel

variable {qt : Qt} {m m' : LayoutModel}

section Steps

lemma Distinct.congr {screens screens' : List ScreenConfig} (h : Distinct qt screens)
    (hnames : screens'.map ScreenConfig.name = screens.map ScreenConfig.name) : Distinct qt screens' := by
  have hnamed (screens : List ScreenConfig) : Distinct qt screens ↔
      (screens.map ScreenConfig.name).Pairwise fun a b => a ≠ [] → qt.sameName a b = false := by
    rw [List.pairwise_map]
    rfl
  rw [hnamed, hnames, ← hnamed]
  exact h

def SameComputer (s t : ScreenConfig) : Prop := t.name = s.name ∧ (s.Scaled → t.Scaled)

lemma SameComputer.refl (s : ScreenConfig) : SameComputer s s := ⟨rfl, id⟩

lemma sameComputers {l l' : List ScreenConfig} (h : List.Forall₂ SameComputer l l') :
    l'.map ScreenConfig.name = l.map ScreenConfig.name ∧ ((∀ s ∈ l, s.Scaled) → ∀ t ∈ l', t.Scaled) := by
  induction h with
  | nil => exact ⟨rfl, id⟩
  | cons hst _ ih =>
    refine ⟨by rw [List.map_cons, List.map_cons, hst.1, ih.1], fun hscaled t ht => ?_⟩
    rcases List.mem_cons.mp ht with rfl | ht
    · exact hst.2 (hscaled _ List.mem_cons_self)
    · exact ih.2 (fun s hs => hscaled s (List.mem_cons_of_mem _ hs)) t ht

lemma Sound.withScreens (h : m.Sound qt) (hdistinct : Distinct qt m'.screens) (hscreens : ∀ s ∈ m'.screens, s.Scaled)
    (hsetups : m'.setups = m.setups) (hoptions : m'.options = m.options) : m'.Sound qt :=
  ⟨hdistinct, hscreens, hsetups ▸ h.keyed, hsetups ▸ h.setups, hsetups ▸ h.few, hoptions ▸ h.dimming⟩

lemma Sound.changed (h : m.Sound qt) (hscreens : List.Forall₂ SameComputer m.screens m'.screens)
    (hsetups : m'.setups = m.setups) (hoptions : m'.options = m.options) : m'.Sound qt := by
  obtain ⟨hnames, hscaled⟩ := sameComputers hscreens
  exact h.withScreens (h.distinct.congr hnames) (hscaled h.screens) hsetups hoptions

lemma Sound.same (h : m.Sound qt) (hscreens : m'.screens = m.screens) (hsetups : m'.setups = m.setups)
    (hoptions : m'.options = m.options) : m'.Sound qt :=
  h.withScreens (hscreens ▸ h.distinct) (hscreens ▸ h.screens) hsetups hoptions

lemma Sound.modify (h : m.Sound qt) (i : ℕ) {f : ScreenConfig → ScreenConfig} (hf : ∀ s, SameComputer s (f s)) :
    (m.modifyScreen i f).Sound qt :=
  h.changed (forall₂_modify f .refl hf m.screens i) rfl rfl

lemma screens_modifyScreen {index : ℕ} {s : ScreenConfig} (hs : m.screens[index]? = some s) (f : ScreenConfig → ScreenConfig) :
    (m.modifyScreen index f).screens = m.screens.set index (f s) := by
  rw [modifyScreen, List.modify_eq_set_getElem?, hs]
  rfl

lemma Sound.modifyAt (h : m.Sound qt) {index : ℕ} {s : ScreenConfig} (hs : m.screens[index]? = some s)
    {f : ScreenConfig → ScreenConfig} (hf : SameComputer s (f s)) : (m.modifyScreen index f).Sound qt := by
  refine h.changed ?_ rfl rfl
  rw [screens_modifyScreen hs]
  exact forall₂_set (List.forall₂_same.mpr fun t _ => .refl t) hs hf

lemma Distinct.append (h : Distinct qt m.screens) {s : ScreenConfig} (hnew : s.name ≠ [] → m.hasScreen qt s.name = false) :
    Distinct qt (m.append s).screens := by
  refine List.pairwise_append.mpr ⟨h, List.pairwise_singleton _ _, fun t ht u hu => ?_⟩
  rw [List.mem_singleton.mp hu]
  apply Differ.symm
  intro hname
  have hfree := (hasScreen_eq_false hname).mp (hnew hname) t ht
  exact decide_eq_false fun hsame => of_decide_eq_false hfree hsame.symm

lemma scaled_append (h : ∀ s ∈ m.screens, s.Scaled) {s : ScreenConfig} (hs : s.Scaled) : ∀ t ∈ (m.append s).screens, t.Scaled := by
  intro t ht
  rcases List.mem_append.mp ht with ht | ht
  · exact h t ht
  · rw [List.mem_singleton.mp ht]
    exact hs

lemma Sound.append (h : m.Sound qt) {s : ScreenConfig} (hnew : s.name ≠ [] → m.hasScreen qt s.name = false) (hs : s.Scaled) :
    (m.append s).Sound qt :=
  h.withScreens (h.distinct.append hnew) (scaled_append h.screens hs) rfl rfl

lemma scaled_new (name : Name) : (ScreenConfig.new name).Scaled :=
  (by decide : kMinScale ≤ (1000 : ℤ) ∧ (1000 : ℤ) ≤ kMaxScale)

lemma measured_cases (d : DisplayConfig) : measured d = 0 ∨ kMinScale ≤ measured d ∧ measured d ≤ kMaxScale := by
  rw [measured]
  split_ifs with hbounds
  · exact .inr hbounds
  · exact .inl rfl

lemma scaled_measured {displays : List DisplayConfig} (h : measuredScale displays ≠ 0) :
    kMinScale ≤ measuredScale displays ∧ measuredScale displays ≤ kMaxScale := by
  have hcases : measuredScale displays = 0 ∨ kMinScale ≤ measuredScale displays ∧ measuredScale displays ≤ kMaxScale := by
    rw [measuredScale]
    split
    · exact .inl rfl
    · exact measured_cases _
  exact hcases.resolve_left h

lemma sameComputer_normaliseDisplays (s : ScreenConfig) : SameComputer s s.normaliseDisplays := by
  rw [ScreenConfig.normaliseDisplays]
  split <;> exact ⟨rfl, id⟩

lemma sameComputer_withReported (s : ScreenConfig) (displays : List DisplayConfig) : SameComputer s (withReported s displays) := by
  rw [withReported]
  obtain ⟨hname, hscaled⟩ := sameComputer_normaliseDisplays { s with displays := displays }
  generalize ({ s with displays := displays } : ScreenConfig).normaliseDisplays = t at hname hscaled
  refine ⟨hname, fun hs => ?_⟩
  change kMinScale ≤ (if 0 < measuredScale t.displays then measuredScale t.displays else t.scale) ∧
    (if 0 < measuredScale t.displays then measuredScale t.displays else t.scale) ≤ kMaxScale
  split_ifs with hmeasured
  · exact scaled_measured hmeasured.ne'
  · exact hscaled hs

lemma sameComputer_newScreen (m : LayoutModel) (name : Name) : SameComputer (.new name) (m.newScreen qt name) := by
  rw [newScreen]
  split_ifs
  · exact .refl _
  · exact sameComputer_withReported _ _

lemma Sound.addScreen (h : m.Sound qt) (name : Name) (x y : ℤ) : (m.addScreen qt name x y).1.Sound qt := by
  rw [LayoutModel.addScreen]
  dsimp only
  split_ifs with htaken
  · exact h
  · exact h
  · push Not at htaken
    obtain ⟨hname, hscaled⟩ := @sameComputer_newScreen qt m (qt.trimmed name)
    apply Sound.save
    apply h.append (s := { m.newScreen qt (qt.trimmed name) with x := x, y := y })
    · intro _
      change m.hasScreen qt (m.newScreen qt (qt.trimmed name)).name = false
      rw [hname]
      exact Bool.eq_false_iff.mpr htaken.2
    · exact hscaled (scaled_new _)

lemma Sound.addScreenAnywhere (h : m.Sound qt) (name : Name) : (m.addScreenAnywhere qt name).1.Sound qt := by
  rw [LayoutModel.addScreenAnywhere]
  split
  · exact h.addScreen name _ _
  · exact h.addScreen name _ _

lemma Sound.ensureServerPlaced (h : m.Sound qt) : (m.ensureServerPlaced qt).Sound qt := by
  rw [LayoutModel.ensureServerPlaced]
  split_ifs
  · exact h
  · exact h.addScreenAnywhere _

lemma Sound.placeNextTo (h : m.Sound qt) (name anchor : Name) (side : Side) : (m.placeNextTo qt name anchor side).1.Sound qt := by
  rw [LayoutModel.placeNextTo]
  split
  · exact h
  · dsimp only
    split_ifs
    · exact h
    · split
      · exact h
      · exact h.addScreen _ _ _

lemma Sound.appendClear (h : m.Sound qt) {s : ScreenConfig} (hnew : s.name ≠ [] → m.hasScreen qt s.name = false) (hs : s.Scaled) :
    (m.appendClear s).Sound qt := by
  rw [LayoutModel.appendClear]
  split
  · exact h.append hnew hs
  · split_ifs
    · exact h.append hnew hs
    · exact h.append hnew hs

lemma Sound.adoptScreen (h : m.Sound qt) (shift : ℤ × ℤ) {s : ScreenConfig} (hs : s.Scaled) :
    (m.adoptScreen qt shift s).Sound qt := by
  rw [LayoutModel.adoptScreen]
  by_cases hname : m.hasScreen qt s.name = true
  · rw [if_pos hname]
    exact h
  · rw [if_neg hname]
    have hnew : m.hasScreen qt s.name = false := Bool.eq_false_iff.mpr hname
    dsimp only
    split_ifs
    · exact h.appendClear (fun _ => hnew) hs
    · exact h.appendClear (fun _ => hnew) hs

lemma Sound.adoptScreens (h : m.Sound qt) {other : LayoutModel} (hother : ∀ s ∈ other.screens, s.Scaled) :
    (m.adoptScreens qt other).Sound qt := by
  have hfold (rest : List ScreenConfig) (shift : ℤ × ℤ) : ∀ m' : LayoutModel, m'.Sound qt → (∀ s ∈ rest, s.Scaled) →
      (rest.foldl (fun m' s => m'.adoptScreen qt shift s) m').Sound qt := by
    induction rest with
    | nil => exact fun m' h' _ => h'
    | cons s rest ih =>
      intro m' h' hrest
      exact ih _ (h'.adoptScreen shift (hrest s List.mem_cons_self)) fun t ht => hrest t (List.mem_cons_of_mem s ht)
  rw [LayoutModel.adoptScreens]
  split_ifs
  · exact (hfold _ _ m h hother).save
  · exact h

lemma Sound.moveTo (h : m.Sound qt) (index : ℕ) (x y : ℤ) : (m.moveTo qt index x y).1.Sound qt := by
  rw [LayoutModel.moveTo]
  split
  · exact h
  · dsimp only
    split_ifs
    · exact h
    · exact h
    · apply Sound.save
      apply h.modify
      exact fun s => ⟨rfl, id⟩

lemma Sound.removeScreen (h : m.Sound qt) (index : ℕ) : (m.removeScreen qt index).Sound qt := by
  rw [LayoutModel.removeScreen]
  split_ifs
  · apply Sound.save
    apply h.withScreens
    · exact h.distinct.sublist (List.eraseIdx_sublist _ _)
    · exact fun s hs => h.screens s (List.mem_of_mem_eraseIdx hs)
    · rfl
    · rfl
  · exact h

lemma Sound.rename (h : m.Sound qt) {index : ℕ} {name : Name} (hindex : index < m.screens.length)
    (hnew : ∀ t ∈ m.screens.eraseIdx index, qt.sameName t.name name = false) :
    (m.modifyScreen index fun s => { s with name := name }).Sound qt := by
  have hset : (m.modifyScreen index fun s => { s with name := name }).screens =
      m.screens.set index { m.screens[index] with name := name } := screens_modifyScreen (List.getElem?_eq_getElem hindex) _
  have hperm := List.set_perm_cons_eraseIdx hindex { m.screens[index] with name := name }
  apply h.withScreens
  · rw [hset, Distinct, hperm.pairwise_iff Differ.symm]
    refine List.pairwise_cons.mpr ⟨fun t ht => ?_, h.distinct.sublist (List.eraseIdx_sublist _ _)⟩
    apply Differ.symm
    exact fun _ => hnew t ht
  · rw [hset]
    intro t ht
    rcases List.mem_or_eq_of_mem_set ht with ht | rfl
    · exact h.screens t ht
    · exact h.screens m.screens[index] (List.getElem_mem hindex)
  · rfl
  · rfl

lemma indexOf_lt {name : Name} {i : ℕ} (h : m.indexOf qt name = some i) :
    ∃ hi : i < m.screens.length, name ≠ [] ∧ qt.sameName m.screens[i].name name = true := by
  rw [indexOf] at h
  split_ifs at h with hname
  obtain ⟨hi, hsame, -⟩ := List.findIdx?_eq_some_iff_getElem.mp h
  exact ⟨hi, hname, hsame⟩

lemma others_differ (h : m.Sound qt) {index : ℕ} {name : Name} (hname : name ≠ [])
    (hother : ¬(m.indexOf qt name).any (fun other => decide (other ≠ index)) = true) :
    ∀ t ∈ m.screens.eraseIdx index, qt.sameName t.name name = false := by
  intro t ht
  cases hfound : m.indexOf qt name with
  | none => exact (indexOf_eq_none hname).mp hfound t (List.mem_of_mem_eraseIdx ht)
  | some i =>
    obtain rfl : i = index := by simpa [hfound] using hother
    obtain ⟨hi, -, hsame⟩ := indexOf_lt hfound
    have hdistinct := ((List.getElem_cons_eraseIdx_perm hi).pairwise_iff Differ.symm).mpr h.distinct
    have hdiffer : Differ qt m.screens[i] t := (List.pairwise_cons.mp hdistinct).1 t ht
    have hsame := of_decide_eq_true hsame
    apply decide_eq_false
    intro heq
    have hnamed : m.screens[i].name ≠ [] := by
      intro hnil
      rw [hnil, List.map_nil] at hsame
      exact hname (List.map_eq_nil_iff.mp hsame.symm)
    exact of_decide_eq_false (hdiffer hnamed) (hsame.trans heq.symm)

lemma Sound.renameScreen (h : m.Sound qt) (index : ℕ) (name : Name) : (m.renameScreen qt index name).1.Sound qt := by
  rw [LayoutModel.renameScreen]
  split
  · exact h
  · rename_i s hs
    obtain ⟨hindex, rfl⟩ := List.getElem?_eq_some_iff.mp hs
    split
    · exact h
    rename_i hempty
    split
    · exact h
    · rename_i hother
      have hnew := others_differ h hempty hother
      split_ifs
      · have hserver : ({ m with serverName := qt.trimmed name } : LayoutModel).Sound qt := h.same rfl rfl rfl
        exact (hserver.rename hindex hnew).save
      · exact (h.rename hindex hnew).save

lemma Sound.setServerName (h : m.Sound qt) (name : Name) : (m.setServerName qt name).Sound qt := by
  have hserver : ({ m with serverName := name } : LayoutModel).Sound qt := h.same rfl rfl rfl
  rw [LayoutModel.setServerName]
  split
  · exact h
  · dsimp only
    split
    · rename_i old hold
      obtain ⟨hindex, -⟩ := indexOf_lt hold
      split_ifs with hnew
      · apply Sound.save
        apply hserver.rename hindex
        exact fun t ht => (indexOf_eq_none hnew.1).mp hnew.2 t (List.mem_of_mem_eraseIdx ht)
      · exact hserver
    · exact hserver

lemma Sound.setScreenSettings (h : m.Sound qt) (index : ℕ) (settings : ScreenSettings) :
    (m.setScreenSettings qt index settings).1.Sound qt := by
  rw [LayoutModel.setScreenSettings]
  split
  · exact h
  · rename_i s hs
    split
    · apply Sound.save
      apply h.modify
      exact fun s => ⟨rfl, id⟩
    · dsimp only
      split_ifs
      · exact h
      · apply Sound.save
        exact h.modifyAt hs ⟨rfl, id⟩

lemma Sound.addDisplay (h : m.Sound qt) (index : ℕ) : (m.addDisplay qt index).1.Sound qt := by
  rw [LayoutModel.addDisplay]
  split
  · exact h
  · exact h.setScreenSettings index _

lemma Sound.removeDisplay (h : m.Sound qt) (index display : ℕ) : (m.removeDisplay qt index display).1.Sound qt := by
  rw [LayoutModel.removeDisplay]
  split
  · exact h
  · split_ifs
    · exact h
    · exact h.setScreenSettings index _

lemma Sound.applyGeometry (h : m.Sound qt) {index : ℕ} {probe : ScreenConfig}
    (hprobe : ∀ s, m.screens[index]? = some s → SameComputer s probe) : (m.applyGeometry qt index probe).1.Sound qt := by
  rw [LayoutModel.applyGeometry]
  split
  · exact h
  · rename_i s hs
    dsimp only
    split_ifs
    · apply Sound.save
      exact h.changed (forall₂_set (forall₂_map_right _ fun t _ => ⟨rfl, id⟩) hs (hprobe s hs)) rfl rfl
    · apply Sound.save
      exact h.changed (forall₂_set (List.forall₂_same.mpr fun t _ => .refl t) hs (hprobe s hs)) rfl rfl
    · exact h

lemma Sound.applyDisplays (h : m.Sound qt) (index : ℕ) (displays : List DisplayConfig) :
    (m.applyDisplays qt index displays).1.Sound qt := by
  rw [LayoutModel.applyDisplays]
  split
  · exact h
  · rename_i s hs
    apply h.applyGeometry
    intro t ht
    obtain rfl : s = t := Option.some.inj (hs.symm.trans ht)
    obtain ⟨hname, hscaled⟩ := sameComputer_normaliseDisplays { s with displays := displays }
    generalize ({ s with displays := displays } : ScreenConfig).normaliseDisplays = probe at hname hscaled
    refine ⟨hname, fun hs => ?_⟩
    have hmeasured (scale : ℤ) (hscale : 0 < scale → kMinScale ≤ scale ∧ scale ≤ kMaxScale) :
        kMinScale ≤ (if 0 < scale then scale else probe.scale) ∧ (if 0 < scale then scale else probe.scale) ≤ kMaxScale := by
      split_ifs with hpos
      · exact hscale hpos
      · exact hscaled hs
    apply hmeasured
    split_ifs
    · exact fun hpos => absurd hpos (lt_irrefl 0)
    · exact fun hpos => scaled_measured hpos.ne'

lemma Sound.setScale (h : m.Sound qt) (index : ℕ) (percent : ℚ) : (m.setScale qt index percent).1.Sound qt := by
  rw [LayoutModel.setScale]
  split
  · exact h
  · rename_i s hs
    apply h.applyGeometry
    intro t ht
    obtain rfl : s = t := Option.some.inj (hs.symm.trans ht)
    exact ⟨rfl, fun _ => qBound_bounds kMinScale_le _⟩

lemma scaled_measuredScaleOf {s : ScreenConfig} (h : m.measuredScaleOf s ≠ 0) :
    kMinScale ≤ m.measuredScaleOf s ∧ m.measuredScaleOf s ≤ kMaxScale := by
  rw [measuredScaleOf] at h ⊢
  split_ifs at h ⊢ with hlive
  · exact scaled_measured hlive.ne'
  · exact scaled_measured h

lemma Sound.useMeasuredScale (h : m.Sound qt) (index : ℕ) : (m.useMeasuredScale qt index).1.Sound qt := by
  rw [LayoutModel.useMeasuredScale]
  split
  · exact h
  · rename_i s hs
    dsimp only
    split_ifs with hzero
    · exact h
    · apply h.applyGeometry
      intro t ht
      obtain rfl : s = t := Option.some.inj (hs.symm.trans ht)
      exact ⟨rfl, fun _ => scaled_measuredScaleOf hzero⟩

lemma Sound.useReportedDisplays (h : m.Sound qt) (index : ℕ) : (m.useReportedDisplays qt index).1.Sound qt := by
  rw [LayoutModel.useReportedDisplays]
  split
  · exact h
  · dsimp only
    split_ifs
    · exact h
    · exact h.applyDisplays index _

lemma Sound.clearAside (h : m.Sound qt) (i : ℕ) : (m.clearAside i).Sound qt := by
  rw [LayoutModel.clearAside]
  split
  · exact h
  · split_ifs
    · split
      · exact h
      · apply h.modify
        exact fun s => ⟨rfl, id⟩
    · exact h

lemma Sound.foldl_clearAside (h : m.Sound qt) (rest : List ℕ) : (rest.foldl LayoutModel.clearAside m).Sound qt := by
  induction rest generalizing m with
  | nil => exact h
  | cons i rest ih => exact ih (h.clearAside i)

lemma sameComputer_restoreScreen {setup : Setup} (hsetup : ∀ e ∈ setup, e.2.Scaled) (s : ScreenConfig) :
    SameComputer s (restoreScreen qt setup s) := by
  rw [restoreScreen]
  cases hfind : setup.find (qt.toLower s.name) with
  | none => exact .refl s
  | some stored => exact ⟨rfl, fun _ => hsetup _ (Setup.mem_of_find hfind)⟩

lemma Sound.restoreSetup (h : m.Sound qt) {index : ℕ} {displays : List DisplayConfig}
    (hrestored : m.restoreSetup qt index displays = some m') : m'.Sound qt := by
  rw [LayoutModel.restoreSetup] at hrestored
  obtain ⟨changed, -, hrestored⟩ := Option.bind_eq_some_iff.mp hrestored
  obtain ⟨best, -, hrestored⟩ := Option.bind_eq_some_iff.mp hrestored
  obtain ⟨setup, hsetup, rfl⟩ := Option.map_eq_some_iff.mp hrestored
  have hscaled := h.setups setup (List.mem_of_getElem? hsetup)
  have hscreens : ({ m with screens := m.screens.map (restoreScreen qt setup) } : LayoutModel).Sound qt :=
    h.changed (forall₂_map_right _ fun s _ => sameComputer_restoreScreen hscaled s) rfl rfl
  have hclear := hscreens.foldl_clearAside (m.unknown qt setup)
  apply Sound.save
  exact hclear.same rfl rfl rfl

lemma Sound.switchSetup (h : m.Sound qt) (index : ℕ) (clean : List DisplayConfig) : (m.switchSetup qt index clean).1.Sound qt := by
  rw [LayoutModel.switchSetup]
  split
  · rename_i hrestored
    exact h.restoreSetup hrestored
  · have hnew : ({ m with activeSetup := none } : LayoutModel).Sound qt := h.same rfl rfl rfl
    have happly := hnew.applyDisplays index clean
    split
    · rename_i happlied
      rw [happlied] at happly
      exact happly
    · exact h

lemma Sound.reportDisplays (h : m.Sound qt) (name : Name) (displays : List DisplayConfig) :
    (m.reportDisplays qt name displays).1.Sound qt := by
  rw [LayoutModel.reportDisplays]
  dsimp only
  generalize cleanDisplays displays = clean
  have hreported : (m.insertReported name clean).Sound qt := h.same rfl rfl rfl
  split_ifs
  · exact h
  · split
    · exact hreported
    · split
      · exact hreported
      · split
        · exact hreported
        · split_ifs
          · exact hreported.switchSetup _ clean
          · exact hreported.applyDisplays _ clean

lemma Sound.withHotkeys (h : m.Sound qt) (hotkeys : List Hotkey) : (LayoutModel.save qt { m with hotkeys := hotkeys }).Sound qt := by
  apply Sound.save
  exact h.same rfl rfl rfl

lemma Sound.edit (h : m.Sound qt) (lower : ℕ → ℕ) (op : HotkeyOp) : (m.edit qt lower op).Sound qt := by
  cases op with
  | addScreen name x y => exact h.addScreen name x y
  | removeScreen index => exact h.removeScreen index
  | renameScreen index name => exact h.renameScreen index name
  | setServerName name => exact h.setServerName name
  | setScreenSettings index settings => exact h.setScreenSettings index settings
  | addHotkey keys =>
    rw [LayoutModel.edit, LayoutModel.addHotkey]
    split_ifs
    · exact h
    · exact h.withHotkeys _
  | addAction hotkeyIndex action =>
    rw [LayoutModel.edit, LayoutModel.addAction]
    split_ifs
    · exact h.withHotkeys _
    · exact h
  | removeHotkey index =>
    rw [LayoutModel.edit, LayoutModel.removeHotkey]
    split_ifs
    · exact h.withHotkeys _
    · exact h
  | removeAction hotkeyIndex actionIndex =>
    rw [LayoutModel.edit, LayoutModel.removeAction]
    split
    · exact h
    · split_ifs
      · exact h.withHotkeys _
      · exact h

end Steps

end LayoutModel

end InputLeap.Gui
