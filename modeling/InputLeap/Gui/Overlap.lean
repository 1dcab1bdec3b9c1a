import InputLeap.Gui.LayoutModel
import InputLeap.Lib.Reachable

/-! No two desktops overlap, whatever is done to the layout. The same holds of every setup that is kept, since each
was recorded from a layout, so that a setup can be restored. -/

namespace InputLeap.Gui

open InputLeap.Lib

def ScreenConfig.Apart (s t : ScreenConfig) : Prop := s.desktop.intersects t.desktop = false

instance (s t : ScreenConfig) : Decidable (s.Apart t) := inferInstanceAs (Decidable (_ = _))

lemma ScreenConfig.Apart.symm {s t : ScreenConfig} (h : s.Apart t) : t.Apart s :=
  (Rect.intersects_comm _ _).trans h

def AllApart (screens : List ScreenConfig) : Prop := screens.Pairwise ScreenConfig.Apart

instance (screens : List ScreenConfig) : Decidable (AllApart screens) := inferInstanceAs (Decidable (List.Pairwise _ _))

def Setup.KeptApart (setup : Setup) : Prop := setup.Pairwise fun a b => a.2.Apart b.2

namespace ScreenConfig

variable {s t : ScreenConfig}

lemma unplacedRects_congr (hdisplays : s.displays = t.displays) (hscale : s.scale = t.scale)
    (htyped : s.scaleTyped = t.scaleTyped) : s.unplacedRects = t.unplacedRects := by
  have hdisplayScale : s.displayScale = t.displayScale := by
    funext d
    rw [displayScale, displayScale, hscale, htyped]
  have hmain : s.mainRect = t.mainRect := by
    funext d
    rw [mainRect, mainRect, hdisplayScale]
  have hbeside : s.besideMain = t.besideMain := by
    funext m d
    rw [besideMain, besideMain, hdisplayScale, hmain]
  rw [unplacedRects, unplacedRects, hdisplays, hmain, hbeside]

lemma desktop_congr (hx : s.x = t.x) (hy : s.y = t.y) (hdisplays : s.displays = t.displays)
    (hscale : s.scale = t.scale) (htyped : s.scaleTyped = t.scaleTyped) : s.desktop = t.desktop := by
  rw [desktop_eq, desktop_eq, hx, hy, extent, extent, unplacedRects_congr hdisplays hscale htyped]

lemma Apart.congr {s' t' : ScreenConfig} (h : s.Apart t) (hs : s'.desktop = s.desktop) (ht : t'.desktop = t.desktop) :
    s'.Apart t' := by
  rw [Apart, hs, ht]
  exact h

end ScreenConfig

section Disjoint

variable {screens : List ScreenConfig}

lemma allApart_iff : AllApart screens ↔
    ∀ (i j : ℕ) (s t : ScreenConfig), screens[i]? = some s → screens[j]? = some t → i ≠ j → s.Apart t := by
  rw [AllApart, List.pairwise_iff_getElem]
  constructor
  · intro h i j s t hs ht hij
    obtain ⟨hi, rfl⟩ := List.getElem?_eq_some_iff.mp hs
    obtain ⟨hj, rfl⟩ := List.getElem?_eq_some_iff.mp ht
    rcases Nat.lt_or_gt_of_ne hij with hlt | hgt
    · exact h i j hi hj hlt
    · exact (h j i hj hi hgt).symm
  · intro h i j hi hj hij
    exact h i j _ _ (List.getElem?_eq_getElem hi) (List.getElem?_eq_getElem hj) hij.ne

lemma AllApart.append_one {s : ScreenConfig} (h : AllApart screens) (hs : ∀ t ∈ screens, t.Apart s) :
    AllApart (screens ++ [s]) := by
  rw [AllApart, List.pairwise_append]
  refine ⟨h, List.pairwise_singleton _ _, fun t ht u hu => ?_⟩
  rw [List.mem_singleton.mp hu]
  exact hs t ht

lemma AllApart.modify {i : ℕ} {f : ScreenConfig → ScreenConfig} (h : AllApart screens)
    (hnew : ∀ (j : ℕ) (s t : ScreenConfig), screens[i]? = some s → screens[j]? = some t → j ≠ i → t.Apart (f s)) :
    AllApart (screens.modify i f) := by
  rw [allApart_iff] at h ⊢
  intro j k s t hs ht hjk
  rw [List.getElem?_modify] at hs ht
  obtain ⟨s', hs', rfl⟩ := Option.map_eq_some_iff.mp hs
  obtain ⟨t', ht', rfl⟩ := Option.map_eq_some_iff.mp ht
  by_cases hj : i = j
  · subst hj
    rw [if_pos rfl, if_neg hjk]
    exact (hnew k s' t' hs' ht' hjk.symm).symm
  · by_cases hk : i = k
    · subst hk
      rw [if_neg hj, if_pos rfl]
      exact hnew j t' s' ht' hs' hjk
    · rw [if_neg hj, if_neg hk]
      exact h j k s' t' hs' ht' hjk

lemma AllApart.map {f : ScreenConfig → ScreenConfig} (h : AllApart screens)
    (hf : ∀ s ∈ screens, (f s).desktop = s.desktop) : AllApart (screens.map f) := by
  rw [AllApart, List.pairwise_map]
  exact h.imp_of_mem fun hs ht hapart => hapart.congr (hf _ hs) (hf _ ht)

lemma AllApart.modify_same {i : ℕ} {f : ScreenConfig → ScreenConfig} (h : AllApart screens)
    (hf : ∀ s, (f s).desktop = s.desktop) : AllApart (screens.modify i f) := by
  apply h.modify
  intro j s t hs ht hji
  exact (allApart_iff.mp h j i t s ht hs hji).congr rfl (hf s)

lemma AllApart.sublist {screens' : List ScreenConfig} (h : AllApart screens) (hsub : screens'.Sublist screens) :
    AllApart screens' := List.Pairwise.sublist hsub h

end Disjoint

namespace Setup

variable {setup : Setup} {s t : ScreenConfig} {k l : Name}

lemma KeptApart.insert (h : setup.KeptApart) (hs : ∀ e ∈ setup, s.Apart e.2) : (setup.insert k s).KeptApart := by
  refine List.pairwise_cons.mpr ⟨fun e he => hs e (List.mem_of_mem_filter he), ?_⟩
  exact List.Pairwise.sublist List.filter_sublist h

lemma mem_of_insert {e : Name × ScreenConfig} (he : e ∈ setup.insert k s) : e.2 = s ∨ e ∈ setup := by
  rcases List.mem_cons.mp he with rfl | he
  · exact .inl rfl
  · exact .inr (List.mem_of_mem_filter he)

lemma keptApart_ofScreens (qt : Qt) {screens : List ScreenConfig} (h : AllApart screens) :
    (ofScreens qt screens).KeptApart := by
  -- what the setup holds is apart from what it does not hold yet
  have hfold (rest : List ScreenConfig) : ∀ setup : Setup, setup.KeptApart → AllApart rest →
      (∀ e ∈ setup, ∀ s ∈ rest, s.Apart e.2) →
      (rest.foldl (fun setup s => setup.insert (qt.toLower s.name) s) setup).KeptApart := by
    induction rest with
    | nil => exact fun setup hsetup _ _ => hsetup
    | cons s rest ih =>
      intro setup hsetup hrest hapart
      obtain ⟨hfirst, hrest⟩ := List.pairwise_cons.mp hrest
      refine ih _ (hsetup.insert fun e he => hapart e he s List.mem_cons_self) hrest fun e he t ht => ?_
      rcases mem_of_insert he with heq | he
      · rw [heq]
        exact (hfirst t ht).symm
      · exact hapart e he t (List.mem_cons_of_mem s ht)
  exact hfold screens [] List.Pairwise.nil h (by simp)

lemma mem_of_find (h : setup.find k = some s) : (k, s) ∈ setup := by
  rw [find, List.lookup_eq_some_iff] at h
  obtain ⟨before, behind, rfl, -⟩ := h
  simp

lemma KeptApart.find_apart (h : setup.KeptApart) (hs : setup.find k = some s) (ht : setup.find l = some t)
    (hkl : k ≠ l) : s.Apart t := by
  have hsymm : Std.Symm fun a b : Name × ScreenConfig => a.2.Apart b.2 := ⟨fun _ _ hapart => hapart.symm⟩
  have hne : (k, s) ≠ (l, t) := fun heq => hkl (Prod.mk.inj heq).1
  have hpairs : List.Pairwise (fun a b : Name × ScreenConfig => a.2.Apart b.2) setup := h
  have hmem := mem_of_find hs
  have hmem' := mem_of_find ht
  have hall := hpairs.forall hmem hmem'
  exact hall hne

end Setup

namespace LayoutModel

variable {qt : Qt} {m : LayoutModel}

structure Inv (m : LayoutModel) : Prop where
  screens : AllApart m.screens
  setups : ∀ setup ∈ m.setups, setup.KeptApart
  stored : ∀ store ∈ m.store, AllApart store.screens ∧ ∀ setup ∈ store.setups, AllApart setup

lemma Inv.withScreens {m' : LayoutModel} (h : Inv m) (hscreens : AllApart m'.screens) (hsetups : m'.setups = m.setups)
    (hstore : m'.store = m.store) : Inv m' :=
  ⟨hscreens, hsetups ▸ h.setups, hstore ▸ h.stored⟩

lemma Inv.recordSetup (h : Inv m) : Inv (m.recordSetup qt) := by
  have hcurrent : (Setup.ofScreens qt m.screens).KeptApart := Setup.keptApart_ofScreens qt h.screens
  rw [LayoutModel.recordSetup]
  cases m.activeSetup.filter fun i => decide (i < m.setups.length) with
  | none =>
    refine ⟨h.screens, fun setup hsetup => ?_, h.stored⟩
    rcases List.mem_cons.mp (List.mem_of_mem_take hsetup) with rfl | hsetup
    · exact hcurrent
    · exact h.setups setup hsetup
  | some i =>
    refine ⟨h.screens, fun setup hsetup => ?_, h.stored⟩
    rcases List.mem_or_eq_of_mem_set hsetup with hsetup | rfl
    · exact h.setups setup hsetup
    · exact hcurrent

lemma Inv.save (h : Inv m) : Inv (m.save qt) := by
  rw [LayoutModel.save]
  cases hstore : m.store with
  | none => exact h
  | some store =>
    have hrecorded : Inv (m.recordSetup qt) := h.recordSetup
    refine ⟨hrecorded.screens, hrecorded.setups, fun store' hstore' => ?_⟩
    cases hstore'
    refine ⟨hrecorded.screens, fun setup hsetup => ?_⟩
    obtain ⟨recorded, hmem, rfl⟩ := List.mem_map.mp hsetup
    rw [AllApart, List.pairwise_map]
    exact hrecorded.setups recorded hmem

lemma overlapsAnother_eq_false {index : Option ℕ} {rect : Rect} (h : m.overlapsAnother index rect = false) {i : ℕ}
    {s : ScreenConfig} (hs : m.screens[i]? = some s) (hi : some i ≠ index) : s.desktop.intersects rect = false := by
  rw [overlapsAnother, List.any_eq_false] at h
  have hnone := h (s, i) (List.mem_zipIdx_iff_getElem?.mpr hs)
  simpa [hi] using hnone

lemma apart_of_not_overlaps {s : ScreenConfig} (h : m.overlapsAnother none s.desktop = false) :
    ∀ t ∈ m.screens, t.Apart s := by
  intro t ht
  obtain ⟨i, hi⟩ := List.mem_iff_getElem?.mp ht
  exact overlapsAnother_eq_false h hi (by simp)

lemma Inv.addScreen (h : Inv m) (name : Name) (x y : ℤ) : Inv (m.addScreen qt name x y).1 := by
  rw [LayoutModel.addScreen]
  dsimp only
  split_ifs with hname hoverlap
  · exact h
  · exact h
  · apply Inv.save
    refine h.withScreens (h.screens.append_one ?_) rfl rfl
    exact apart_of_not_overlaps (Bool.eq_false_iff.mpr hoverlap)

lemma Inv.addScreenAnywhere (h : Inv m) (name : Name) : Inv (m.addScreenAnywhere qt name).1 := by
  rw [LayoutModel.addScreenAnywhere]
  split
  · exact h.addScreen name _ _
  · exact h.addScreen name _ _

lemma Inv.placeNextTo (h : Inv m) (name anchor : Name) (side : Side) : Inv (m.placeNextTo qt name anchor side).1 := by
  rw [LayoutModel.placeNextTo]
  split
  · exact h
  · dsimp only
    split_ifs
    · exact h
    · split
      · exact h
      · exact h.addScreen _ _ _

lemma apart_of_box {desktops : List ScreenConfig} {box : Rect} (hbox : Rect.box (desktops.map ScreenConfig.desktop) = some box)
    {s t : ScreenConfig} (ht : t ∈ desktops) : t.Apart { s with x := box.right, y := box.y } := by
  have hinside : t.desktop.Inside box := Rect.inside_box (List.mem_map_of_mem ht) hbox
  rw [ScreenConfig.Apart, Rect.intersects_eq_false_iff, ScreenConfig.desktop_eq { s with x := box.right, y := box.y }]
  exact .inr (.inl hinside.2.2.1)

lemma Inv.appendClear (h : Inv m) (screen : ScreenConfig) : Inv (m.appendClear screen) := by
  rw [LayoutModel.appendClear]
  cases hbox : m.bounds with
  | none =>
    have hnil : m.screens = [] := List.map_eq_nil_iff.mp (Rect.box_eq_none.mp hbox)
    refine h.withScreens (h.screens.append_one ?_) rfl rfl
    simp [hnil]
  | some box =>
    refine h.withScreens (h.screens.append_one ?_) rfl rfl
    split_ifs with hoverlap
    · exact fun t ht => apart_of_box hbox ht
    · exact apart_of_not_overlaps (Bool.eq_false_iff.mpr hoverlap)

lemma Inv.adoptScreen (h : Inv m) (shift : ℤ × ℤ) (s : ScreenConfig) : Inv (m.adoptScreen qt shift s) := by
  rw [LayoutModel.adoptScreen]
  by_cases hname : m.hasScreen qt s.name = true
  · rw [if_pos hname]
    exact h
  · rw [if_neg hname]
    exact h.appendClear _

lemma Inv.adoptScreens (h : Inv m) (other : LayoutModel) : Inv (m.adoptScreens qt other) := by
  have hfold (rest : List ScreenConfig) (shift : ℤ × ℤ) : ∀ m' : LayoutModel, Inv m' →
      Inv (rest.foldl (fun m' s => m'.adoptScreen qt shift s) m') := by
    induction rest with
    | nil => exact fun m' h' => h'
    | cons s rest ih => exact fun m' h' => ih _ (h'.adoptScreen shift s)
  rw [LayoutModel.adoptScreens]
  split_ifs
  · exact (hfold _ _ m h).save
  · exact h

lemma Inv.modifyScreen {i : ℕ} {f : ScreenConfig → ScreenConfig} (h : Inv m)
    (hnew : ∀ s, m.screens[i]? = some s → m.overlapsAnother (some i) (f s).desktop = false) :
    Inv (m.modifyScreen i f) := by
  refine h.withScreens (h.screens.modify fun j s t hs ht hji => ?_) rfl rfl
  exact overlapsAnother_eq_false (hnew s hs) ht (by simpa using hji)

lemma Inv.modifySame {i : ℕ} {f : ScreenConfig → ScreenConfig} (h : Inv m) (hf : ∀ s, (f s).desktop = s.desktop) :
    Inv (m.modifyScreen i f) :=
  h.withScreens (h.screens.modify_same hf) rfl rfl

lemma Inv.moveTo (h : Inv m) (index : ℕ) (x y : ℤ) : Inv (m.moveTo qt index x y).1 := by
  rw [LayoutModel.moveTo]
  split
  · exact h
  · rename_i s hs
    dsimp only
    split_ifs with hsame hoverlap
    · exact h
    · exact h
    · apply Inv.save
      apply h.modifyScreen
      intro t ht
      obtain rfl : s = t := Option.some.inj (hs.symm.trans ht)
      rw [Bool.not_eq_true, ScreenConfig.desktop_eq] at hoverlap
      rw [ScreenConfig.desktop_eq]
      exact hoverlap

lemma Inv.removeScreen (h : Inv m) (index : ℕ) : Inv (m.removeScreen qt index) := by
  rw [LayoutModel.removeScreen]
  split_ifs
  · apply Inv.save
    exact h.withScreens (h.screens.sublist (List.eraseIdx_sublist _ _)) rfl rfl
  · exact h

lemma Inv.rename (h : Inv m) (index : ℕ) (name : Name) :
    Inv (m.modifyScreen index fun s => { s with name := name }) :=
  h.modifySame fun _ => ScreenConfig.desktop_congr rfl rfl rfl rfl rfl

lemma Inv.renameScreen (h : Inv m) (index : ℕ) (name : Name) : Inv (m.renameScreen qt index name).1 := by
  rw [LayoutModel.renameScreen]
  dsimp only
  split
  · exact h
  · split_ifs
    · exact h
    · exact h
    · have hnamed : Inv { m with serverName := qt.trimmed name } := h.withScreens h.screens rfl rfl
      exact (hnamed.rename index _).save
    · exact (h.rename index _).save

lemma Inv.setServerName (h : Inv m) (name : Name) : Inv (m.setServerName qt name) := by
  have hnamed : Inv { m with serverName := name } := h.withScreens h.screens rfl rfl
  rw [LayoutModel.setServerName]
  split
  · exact h
  · dsimp only
    split
    · split_ifs
      · exact (hnamed.rename _ name).save
      · exact hnamed
    · exact hnamed

lemma desktop_withSettings (settings : ScreenSettings) (s : ScreenConfig) :
    (withSettings qt settings s).desktop = s.desktop :=
  ScreenConfig.desktop_congr rfl rfl rfl rfl rfl

lemma Inv.setScreenSettings (h : Inv m) (index : ℕ) (settings : ScreenSettings) :
    Inv (m.setScreenSettings qt index settings).1 := by
  rw [LayoutModel.setScreenSettings]
  split
  · exact h
  · split
    · exact (h.modifySame (desktop_withSettings settings)).save
    · dsimp only
      split_ifs with hoverlap
      · exact h
      · apply Inv.save
        apply h.modifyScreen
        intro t ht
        rw [desktop_withSettings]
        exact Bool.eq_false_iff.mpr hoverlap

lemma Inv.addDisplay (h : Inv m) (index : ℕ) : Inv (m.addDisplay qt index).1 := by
  rw [LayoutModel.addDisplay]
  split
  · exact h
  · exact h.setScreenSettings index _

lemma Inv.removeDisplay (h : Inv m) (index display : ℕ) : Inv (m.removeDisplay qt index display).1 := by
  rw [LayoutModel.removeDisplay]
  split
  · exact h
  · split_ifs
    · exact h
    · exact h.setScreenSettings index _

lemma Inv.applyGeometry (h : Inv m) (index : ℕ) (probe : ScreenConfig) :
    Inv (m.applyGeometry qt index probe).1 := by
  rw [LayoutModel.applyGeometry]
  split
  · exact h
  · dsimp only
    split_ifs with hmoved hunchanged
    · exact Inv.save (h.withScreens (of_decide_eq_true hmoved) rfl rfl)
    · exact Inv.save (h.withScreens (of_decide_eq_true hunchanged) rfl rfl)
    · exact h

lemma Inv.applyDisplays (h : Inv m) (index : ℕ) (displays : List DisplayConfig) :
    Inv (m.applyDisplays qt index displays).1 := by
  rw [LayoutModel.applyDisplays]
  split
  · exact h
  · exact h.applyGeometry index _

lemma Inv.useReportedDisplays (h : Inv m) (index : ℕ) : Inv (m.useReportedDisplays qt index).1 := by
  rw [LayoutModel.useReportedDisplays]
  split
  · exact h
  · dsimp only
    split_ifs
    · exact h
    · exact h.applyDisplays index _

lemma Inv.setScale (h : Inv m) (index : ℕ) (percent : ℚ) : Inv (m.setScale qt index percent).1 := by
  rw [LayoutModel.setScale]
  split
  · exact h
  · exact h.applyGeometry index _

lemma Inv.useMeasuredScale (h : Inv m) (index : ℕ) : Inv (m.useMeasuredScale qt index).1 := by
  rw [LayoutModel.useMeasuredScale]
  split
  · exact h
  · dsimp only
    split_ifs
    · exact h
    · exact h.applyGeometry index _

section Restore

variable {i j : ℕ} {s t : ScreenConfig}

lemma clearAside_of_ne (hij : j ≠ i) : (m.clearAside i).screens[j]? = m.screens[j]? := by
  rw [clearAside]
  split
  · rfl
  · split_ifs
    · split
      · rfl
      · rw [modifyScreen, List.getElem?_modify]
        simp [hij.symm]
    · rfl

lemma clearAside_apart (hij : j ≠ i) (hs : (m.clearAside i).screens[i]? = some s) (ht : m.screens[j]? = some t) :
    t.Apart s := by
  rw [clearAside] at hs
  cases hi : m.screens[i]? with
  | none => simp [hi] at hs
  | some u =>
    simp only [hi] at hs
    split_ifs at hs with hoverlap
    · have hmem : t ∈ m.screens.eraseIdx i := by
        rw [List.mem_iff_getElem?]
        rcases Nat.lt_or_gt_of_ne hij with hlt | hgt
        · exact ⟨j, by rw [List.getElem?_eraseIdx_of_lt hlt]; exact ht⟩
        · refine ⟨j - 1, ?_⟩
          rw [List.getElem?_eraseIdx_of_ge (by omega), Nat.sub_add_cancel (by omega)]
          exact ht
      split at hs
      · rename_i hbox
        rw [Rect.box_eq_none, List.map_eq_nil_iff] at hbox
        simp [hbox] at hmem
      · rename_i box hbox
        rw [modifyScreen, List.getElem?_modify, hi] at hs
        simp only [Option.map_eq_map, Option.map_some, if_true, Option.some.injEq] at hs
        rw [← hs]
        exact apart_of_box hbox hmem
    · obtain rfl : u = s := Option.some.inj (hi.symm.trans hs)
      exact overlapsAnother_eq_false (Bool.eq_false_iff.mpr hoverlap) ht (by simpa using hij)

lemma clearAside_frame (m : LayoutModel) (i : ℕ) :
    (m.clearAside i).setups = m.setups ∧ (m.clearAside i).store = m.store := by
  rw [clearAside]
  split
  · exact ⟨rfl, rfl⟩
  · split_ifs
    · split <;> exact ⟨rfl, rfl⟩
    · exact ⟨rfl, rfl⟩

lemma foldl_clearAside (rest : List ℕ) : ∀ m : LayoutModel,
    (∀ (i j : ℕ) (s t : ScreenConfig), i ≠ j → i ∉ rest → j ∉ rest → m.screens[i]? = some s →
      m.screens[j]? = some t → s.Apart t) →
    AllApart (rest.foldl clearAside m).screens ∧ (rest.foldl clearAside m).setups = m.setups ∧
      (rest.foldl clearAside m).store = m.store := by
  induction rest with
  | nil =>
    intro m h
    refine ⟨allApart_iff.mpr fun i j s t hs ht hij => ?_, rfl, rfl⟩
    exact h i j s t hij (by simp) (by simp) hs ht
  | cons k rest ih =>
    intro m h
    obtain ⟨happart, hsetups, hstore⟩ := ih (m.clearAside k) fun i j s t hij hi hj hs ht => by
      by_cases hik : i = k
      · subst hik
        rw [clearAside_of_ne hij.symm] at ht
        exact (clearAside_apart hij.symm hs ht).symm
      · rw [clearAside_of_ne hik] at hs
        by_cases hjk : j = k
        · subst hjk
          exact clearAside_apart hij ht hs
        · rw [clearAside_of_ne hjk] at ht
          exact h i j s t hij (by simp [hik, hi]) (by simp [hjk, hj]) hs ht
    obtain ⟨hsetups', hstore'⟩ := clearAside_frame m k
    exact ⟨happart, hsetups.trans hsetups', hstore.trans hstore'⟩

lemma mem_unknown {setup : Setup} (hs : m.screens[i]? = some s) (hi : i ∉ m.unknown qt setup) :
    ∃ stored, setup.find (qt.toLower s.name) = some stored := by
  have hmem : (s, i) ∈ m.screens.zipIdx := List.mem_zipIdx_iff_getElem?.mpr hs
  rw [← Option.isSome_iff_exists, ← Bool.not_eq_false]
  intro hnone
  apply hi
  exact List.mem_map.mpr ⟨(s, i), List.mem_filter.mpr ⟨hmem, by simp [known, hnone]⟩, rfl⟩

lemma restoreScreen_apart {setup : Setup} {stored stored' : ScreenConfig} (hsetup : setup.KeptApart)
    (hs : setup.find (qt.toLower s.name) = some stored) (ht : setup.find (qt.toLower t.name) = some stored')
    (hnames : qt.toLower s.name ≠ qt.toLower t.name) :
    (restoreScreen qt setup s).Apart (restoreScreen qt setup t) := by
  rw [restoreScreen, restoreScreen, hs, ht]
  exact (hsetup.find_apart hs ht hnames).congr (ScreenConfig.desktop_congr rfl rfl rfl rfl rfl)
    (ScreenConfig.desktop_congr rfl rfl rfl rfl rfl)

lemma Inv.restoreSetup {m' : LayoutModel} {index : ℕ} {displays : List DisplayConfig} (h : Inv m)
    (hnames : (m.screens.map fun s => qt.toLower s.name).Nodup)
    (hrestored : m.restoreSetup qt index displays = some m') : Inv m' := by
  rw [LayoutModel.restoreSetup] at hrestored
  obtain ⟨changed, -, hrestored⟩ := Option.bind_eq_some_iff.mp hrestored
  obtain ⟨best, -, hrestored⟩ := Option.bind_eq_some_iff.mp hrestored
  obtain ⟨setup, hsetup, rfl⟩ := Option.map_eq_some_iff.mp hrestored
  have hkept : setup.KeptApart := h.setups setup (List.mem_of_getElem? hsetup)
  obtain ⟨happart, hsetups, hstore⟩ :=
    foldl_clearAside (m.unknown qt setup) { m with screens := m.screens.map (restoreScreen qt setup) }
      fun i j s t hij hi hj hs ht => by
        rw [List.getElem?_map] at hs ht
        obtain ⟨s', hs', rfl⟩ := Option.map_eq_some_iff.mp hs
        obtain ⟨t', ht', rfl⟩ := Option.map_eq_some_iff.mp ht
        obtain ⟨stored, hstored⟩ := mem_unknown hs' hi
        obtain ⟨stored', hstored'⟩ := mem_unknown ht' hj
        refine restoreScreen_apart hkept hstored hstored' fun heq => hij ?_
        have hi' : (m.screens.map fun s => qt.toLower s.name)[i]? = some (qt.toLower s'.name) := by simp [hs']
        have hj' : (m.screens.map fun s => qt.toLower s.name)[j]? = some (qt.toLower s'.name) := by simp [ht', heq]
        exact (List.getElem?_inj (List.getElem?_eq_some_iff.mp hi').1 hnames).mp (hi'.trans hj'.symm)
  exact Inv.save (h.withScreens happart hsetups hstore)

end Restore

lemma Inv.switchSetup (h : Inv m) (hnames : (m.screens.map fun s => qt.toLower s.name).Nodup) (index : ℕ)
    (clean : List DisplayConfig) : Inv (m.switchSetup qt index clean).1 := by
  rw [LayoutModel.switchSetup]
  split
  · rename_i hrestored
    exact h.restoreSetup hnames hrestored
  · have hnew : Inv { m with activeSetup := none } := h.withScreens h.screens rfl rfl
    have happly : Inv ({ m with activeSetup := none }.applyDisplays qt index clean).1 := hnew.applyDisplays index clean
    split
    · rename_i happlied
      rw [happlied] at happly
      exact happly
    · exact h

lemma Inv.reportDisplays (h : Inv m) (hnames : (m.screens.map fun s => qt.toLower s.name).Nodup) (name : Name)
    (displays : List DisplayConfig) : Inv (m.reportDisplays qt name displays).1 := by
  rw [LayoutModel.reportDisplays]
  dsimp only
  generalize cleanDisplays displays = clean
  have hreported : Inv (m.insertReported name clean) := h.withScreens h.screens rfl rfl
  split_ifs
  · exact h
  · split
    · exact hreported
    · split
      · exact hreported
      · split
        · exact hreported
        · split_ifs
          · exact hreported.switchSetup hnames _ clean
          · exact hreported.applyDisplays _ clean

end LayoutModel

section Stored

def DisplayConfig.Placed (d : DisplayConfig) : Prop :=
  (0 ≤ d.x ∧ d.x ≤ kMaxDimension) ∧ (0 ≤ d.y ∧ d.y ≤ kMaxDimension) ∧
    (1 ≤ d.width ∧ d.width ≤ kMaxDimension) ∧ 1 ≤ d.height ∧ d.height ≤ kMaxDimension

instance (d : DisplayConfig) : Decidable d.Placed := inferInstanceAs (Decidable (_ ∧ _))

def DisplayConfig.MeasuredOrNot (d : DisplayConfig) : Prop :=
  d.mmWidth = 0 ∧ d.mmHeight = 0 ∨
    (0 < d.mmWidth ∧ d.mmWidth ≤ 10000) ∧ 0 < d.mmHeight ∧ d.mmHeight ≤ 10000

instance (d : DisplayConfig) : Decidable d.MeasuredOrNot := inferInstanceAs (Decidable (_ ∨ _))

/-- Displays that no display is further from the corner of than the greatest coordinate that is loaded. -/
def Cornered (displays : List DisplayConfig) : Prop :=
  (∀ d ∈ displays, d.Placed) ∧ (∃ d ∈ displays, d.x = 0) ∧ ∃ d ∈ displays, d.y = 0

instance (displays : List DisplayConfig) : Decidable (Cornered displays) := inferInstanceAs (Decidable (_ ∧ _ ∧ _))

def ScreenConfig.Storable (s : ScreenConfig) : Prop :=
  Cornered s.displays ∧ kMinScale ≤ s.scale ∧ s.scale ≤ kMaxScale

instance (s : ScreenConfig) : Decidable s.Storable := inferInstanceAs (Decidable (_ ∧ _))

/-- A setup keeps no more displays than a computer may report. -/
def ScreenConfig.StorableInSetup (s : ScreenConfig) : Prop :=
  s.Storable ∧ s.displays.length ≤ kMaxReportedDisplays ∧ ∀ d ∈ s.displays, d.MeasuredOrNot

instance (s : ScreenConfig) : Decidable s.StorableInSetup := inferInstanceAs (Decidable (_ ∧ _))

lemma foldl_min (f : DisplayConfig → ℤ) (ds : List DisplayConfig) (n : ℤ) :
    (ds.foldl (fun n d => min n (f d)) n ≤ n ∧ ∀ d ∈ ds, ds.foldl (fun n d => min n (f d)) n ≤ f d) ∧
      (ds.foldl (fun n d => min n (f d)) n = n ∨ ∃ d ∈ ds, ds.foldl (fun n d => min n (f d)) n = f d) := by
  induction ds generalizing n with
  | nil => exact ⟨⟨le_rfl, by simp⟩, .inl rfl⟩
  | cons d ds ih =>
    obtain ⟨⟨hle, hall⟩, hsome⟩ := ih (min n (f d))
    rw [List.foldl_cons]
    refine ⟨⟨hle.trans (min_le_left _ _), fun e he => ?_⟩, ?_⟩
    · rcases List.mem_cons.mp he with rfl | he
      · exact hle.trans (min_le_right _ _)
      · exact hall e he
    · rcases hsome with heq | ⟨e, he, heq⟩
      · rcases min_choice n (f d) with hn | hd
        · exact .inl (heq.trans hn)
        · exact .inr ⟨d, List.mem_cons_self, heq.trans hd⟩
      · exact .inr ⟨e, List.mem_cons_of_mem d he, heq⟩

lemma minOf_eq_zero {f : DisplayConfig → ℤ} {d : DisplayConfig} {ds : List DisplayConfig}
    (hnonneg : ∀ e ∈ d :: ds, 0 ≤ f e) (hzero : ∃ e ∈ d :: ds, f e = 0) : minOf f d ds = 0 := by
  obtain ⟨⟨hfirst, hall⟩, hsome⟩ := foldl_min f ds (f d)
  have hle : minOf f d ds ≤ 0 := by
    obtain ⟨e, he, heq⟩ := hzero
    rcases List.mem_cons.mp he with rfl | he
    · exact heq ▸ hfirst
    · exact heq ▸ hall e he
  have hge : 0 ≤ minOf f d ds := by
    rcases hsome with heq | ⟨e, he, heq⟩
    · exact heq.ge.trans' (hnonneg d List.mem_cons_self)
    · exact heq.ge.trans' (hnonneg e (List.mem_cons_of_mem d he))
  exact le_antisymm hle hge

lemma moveToOrigin_eq {displays : List DisplayConfig} (h : Cornered displays) : moveToOrigin displays = displays := by
  cases displays with
  | nil => rfl
  | cons d ds =>
    rw [moveToOrigin, minOf_eq_zero (fun e he => (h.1 e he).1.1) h.2.1, minOf_eq_zero (fun e he => (h.1 e he).2.1.1) h.2.2]
    conv_rhs => rw [← List.map_id (d :: ds)]
    apply List.map_congr_left
    intro e _
    simp [DisplayConfig.moved]

lemma clamped_eq {d : DisplayConfig} (h : d.Placed) : d.clamped = d := by
  obtain ⟨hx, hy, hwidth, hheight⟩ := h
  simp only [DisplayConfig.clamped, qBound]
  cases d
  simp only [DisplayConfig.mk.injEq] at *
  simp only [kMaxDimension] at *
  exact ⟨by omega, by omega, by omega, by omega, trivial, trivial⟩

lemma map_clamped {displays : List DisplayConfig} (h : Cornered displays) :
    displays.map DisplayConfig.clamped = displays := by
  conv_rhs => rw [← List.map_id displays]
  exact List.map_congr_left fun d hd => clamped_eq (h.1 d hd)

lemma normaliseDisplays_eq {s : ScreenConfig} (h : Cornered s.displays) : s.normaliseDisplays = s := by
  rw [ScreenConfig.normaliseDisplays, map_clamped h]
  obtain ⟨name, x, y, displays⟩ := s
  cases displays with
  | nil =>
    obtain ⟨d, hd, -⟩ := h.2.1
    simp at hd
  | cons d ds =>
    have hx : minOf DisplayConfig.x d ds = 0 := minOf_eq_zero (fun e he => (h.1 e he).1.1) h.2.1
    have hy : minOf DisplayConfig.y d ds = 0 := minOf_eq_zero (fun e he => (h.1 e he).2.1.1) h.2.2
    have hdisplays : moveToOrigin (d :: ds) = d :: ds := moveToOrigin_eq h
    dsimp only
    rw [hx, hy, hdisplays]
    simp [ScreenConfig.toShared, lround]

lemma qBound_eq {low value high : ℤ} (hlow : low ≤ value) (hhigh : value ≤ high) : qBound low value high = value := by
  rw [qBound, min_eq_left hhigh, max_eq_right hlow]

lemma loadScreen_eq {s : ScreenConfig} (h : s.Storable) : LayoutModel.loadScreen s = s := by
  rw [LayoutModel.loadScreen, qBound_eq h.2.1 h.2.2]
  exact normaliseDisplays_eq h.1

lemma cleanDisplay_eq {d : DisplayConfig} (h : d.Placed) (hsize : d.MeasuredOrNot) : cleanDisplay d = d := by
  obtain ⟨hx, hy, hwidth, hheight⟩ := h
  simp only [cleanDisplay, qBound]
  cases d
  simp only [DisplayConfig.mk.injEq, DisplayConfig.MeasuredOrNot] at *
  simp only [kMaxDimension] at *
  refine ⟨by omega, by omega, by omega, by omega, ?_, ?_⟩
  · split_ifs <;> omega
  · split_ifs <;> omega

lemma cleanDisplays_eq {displays : List DisplayConfig} (h : Cornered displays) (hlength : displays.length ≤ kMaxReportedDisplays)
    (hsize : ∀ d ∈ displays, d.MeasuredOrNot) : cleanDisplays displays = displays := by
  have hfilter : displays.filter (fun d => decide (0 < d.width ∧ 0 < d.height)) = displays := by
    rw [List.filter_eq_self]
    intro d hd
    obtain ⟨-, -, hwidth, hheight⟩ := h.1 d hd
    simp only [decide_eq_true_eq]
    omega
  have hmap : displays.map cleanDisplay = displays := by
    conv_rhs => rw [← List.map_id displays]
    exact List.map_congr_left fun d hd => cleanDisplay_eq (h.1 d hd) (hsize d hd)
  rw [cleanDisplays, hfilter, List.take_of_length_le hlength, hmap]
  exact moveToOrigin_eq h

lemma displaysFromJson_eq {s : ScreenConfig} (h : s.StorableInSetup) : displaysFromJson s.displays = s.displays := by
  obtain ⟨hstorable, hlength, hsize⟩ := h
  rw [displaysFromJson, List.take_of_length_le (by omega)]
  exact cleanDisplays_eq hstorable.1 hlength hsize

lemma desktop_loadStored {s : ScreenConfig} (h : s.StorableInSetup) : (LayoutModel.loadStored s).desktop = s.desktop := by
  refine ScreenConfig.desktop_congr rfl rfl ?_ (qBound_eq h.1.2.1 h.1.2.2) rfl
  have hne : s.displays ≠ [] := by
    obtain ⟨d, hd, -⟩ := h.1.1.2.1
    exact List.ne_nil_of_mem hd
  rw [LayoutModel.loadStored]
  dsimp only
  rw [displaysFromJson_eq h, if_neg hne]

end Stored

namespace LayoutModel

variable {qt : Qt} {m : LayoutModel}

def Storable (store : LayoutStore) : Prop :=
  (∀ s ∈ store.screens, s.Storable) ∧ ∀ setup ∈ store.setups, ∀ s ∈ setup, s.StorableInSetup

instance (store : LayoutStore) : Decidable (Storable store) := inferInstanceAs (Decidable (_ ∧ _))

lemma allApart_loadScreens {screens : List ScreenConfig} (hstorable : ∀ s ∈ screens, s.Storable)
    (h : AllApart screens) : AllApart (m.loadScreens qt screens).screens := by
  -- what is loaded is apart from what is still to be loaded
  have hfold (rest : List ScreenConfig) : ∀ m : LayoutModel, (∀ s ∈ rest, s.Storable) → AllApart rest →
      AllApart m.screens → (∀ t ∈ m.screens, ∀ s ∈ rest, t.Apart s) →
      AllApart (rest.foldl (fun m s => if s.name = [] ∨ m.hasScreen qt s.name then m else m.append (loadScreen s)) m).screens := by
    induction rest with
    | nil => exact fun m _ _ hm _ => hm
    | cons s rest ih =>
      intro m hall hrest hm hapart
      obtain ⟨hfirst, hrest⟩ := List.pairwise_cons.mp hrest
      have hall' : ∀ t ∈ rest, t.Storable := fun t ht => hall t (List.mem_cons_of_mem s ht)
      rw [List.foldl_cons]
      split_ifs
      · exact ih m hall' hrest hm fun t ht u hu => hapart t ht u (List.mem_cons_of_mem s hu)
      · rw [loadScreen_eq (hall s List.mem_cons_self)]
        refine ih _ hall' hrest (hm.append_one fun t ht => hapart t ht s List.mem_cons_self) fun t ht u hu => ?_
        rcases List.mem_append.mp ht with ht | ht
        · exact hapart t ht u (List.mem_cons_of_mem s hu)
        · rw [List.mem_singleton.mp ht]
          exact hfirst u hu
  exact hfold screens { m with screens := [] } hstorable h List.Pairwise.nil (by simp)

lemma keptApart_loadSetup {screens : List ScreenConfig} (hstorable : ∀ s ∈ screens, s.StorableInSetup)
    (h : AllApart screens) : (loadSetup qt screens).KeptApart := by
  apply Setup.keptApart_ofScreens
  exact (h.sublist List.filter_sublist).map fun s hs => desktop_loadStored (hstorable s (List.mem_of_mem_filter hs))

lemma frame_loadScreens (screens : List ScreenConfig) (m : LayoutModel) :
    (m.loadScreens qt screens).store = m.store := by
  have hfold (rest : List ScreenConfig) : ∀ m : LayoutModel,
      (rest.foldl (fun m s => if s.name = [] ∨ m.hasScreen qt s.name then m else m.append (loadScreen s)) m).store =
        m.store := by
    induction rest with
    | nil => exact fun m => rfl
    | cons s rest ih =>
      intro m
      rw [List.foldl_cons, ih]
      split_ifs <;> rfl
  exact hfold screens _

lemma Inv.restart (h : Inv m) (hstorable : ∀ store ∈ m.store, Storable store) : Inv (m.restart qt) := by
  rw [LayoutModel.restart, load]
  cases hstore : m.store with
  | none => exact ⟨List.Pairwise.nil, by simp [empty], by simp [empty]⟩
  | some store =>
    obtain ⟨hscreens, hsetups⟩ := h.stored store hstore
    obtain ⟨hload, hloadSetups⟩ := hstorable store hstore
    refine ⟨allApart_loadScreens hload hscreens, fun setup hsetup => ?_, fun store' hstore' => ?_⟩
    · have hmem := List.mem_of_mem_filter (List.mem_of_mem_take hsetup)
      obtain ⟨stored, hstored, rfl⟩ := List.mem_map.mp hmem
      exact keptApart_loadSetup (hloadSetups stored hstored) (hsetups stored hstored)
    · have hsame : store' = store := by
        change (loadScreens qt _ store.screens).store = some store' at hstore'
        rw [frame_loadScreens] at hstore'
        exact (Option.some.inj hstore').symm
      rw [hsame]
      exact ⟨hscreens, hsetups⟩

end LayoutModel

inductive LayoutOp
  | addScreen (name : Name) (x y : ℤ)
  | addScreenAnywhere (name : Name)
  | placeNextTo (name anchor : Name) (side : Side)
  | adoptScreens (other : LayoutModel)
  | moveTo (index : ℕ) (x y : ℤ)
  | setScreenSettings (index : ℕ) (settings : LayoutModel.ScreenSettings)
  | addDisplay (index : ℕ)
  | removeDisplay (index display : ℕ)
  | setScale (index : ℕ) (percent : ℚ)
  | useMeasuredScale (index : ℕ)
  | reportDisplays (name : Name) (displays : List DisplayConfig)
  | useReportedDisplays (index : ℕ)
  | renameScreen (index : ℕ) (name : Name)
  | removeScreen (index : ℕ)
  | setServerName (name : Name)
  | restart

namespace LayoutModel

variable (qt : Qt) (m : LayoutModel)

def apply : LayoutOp → LayoutModel
  | .addScreen name x y => (m.addScreen qt name x y).1
  | .addScreenAnywhere name => (m.addScreenAnywhere qt name).1
  | .placeNextTo name anchor side => (m.placeNextTo qt name anchor side).1
  | .adoptScreens other => m.adoptScreens qt other
  | .moveTo index x y => (m.moveTo qt index x y).1
  | .setScreenSettings index settings => (m.setScreenSettings qt index settings).1
  | .addDisplay index => (m.addDisplay qt index).1
  | .removeDisplay index display => (m.removeDisplay qt index display).1
  | .setScale index percent => (m.setScale qt index percent).1
  | .useMeasuredScale index => (m.useMeasuredScale qt index).1
  | .reportDisplays name displays => (m.reportDisplays qt name displays).1
  | .useReportedDisplays index => (m.useReportedDisplays qt index).1
  | .renameScreen index name => (m.renameScreen qt index name).1
  | .removeScreen index => m.removeScreen qt index
  | .setServerName name => m.setServerName qt name
  | .restart => m.restart qt

def next (op : LayoutOp) : Option LayoutModel := some (m.apply qt op)

def emptyStore : LayoutStore := ⟨[], [], none⟩

def Initial : Prop := m = empty none ∨ m = empty (some emptyStore)

/-- A report finds no two computers with the same key in a setup, and a store gives back what it was given. -/
def Kept : LayoutOp → Prop
  | .reportDisplays _ _ => (m.screens.map fun s => qt.toLower s.name).Nodup
  | .restart => ∀ store ∈ m.store, Storable store
  | _ => True

instance : ∀ (m : LayoutModel) (op : LayoutOp), Decidable (m.Kept qt op)
  | m, .reportDisplays _ _ => inferInstanceAs (Decidable (m.screens.map fun s => qt.toLower s.name).Nodup)
  | m, .restart => inferInstanceAs (Decidable (∀ store ∈ m.store, Storable store))
  | _, .addScreen .. | _, .addScreenAnywhere .. | _, .placeNextTo .. | _, .adoptScreens .. | _, .moveTo ..
  | _, .setScreenSettings .. | _, .addDisplay .. | _, .removeDisplay .. | _, .setScale .. | _, .useMeasuredScale ..
  | _, .useReportedDisplays .. | _, .renameScreen .. | _, .removeScreen .. | _, .setServerName .. => .isTrue trivial

variable {qt m}

lemma Inv.apply {op : LayoutOp} (h : Inv m) (hok : m.Kept qt op) : Inv (m.apply qt op) := by
  cases op with
  | addScreen name x y => exact h.addScreen name x y
  | addScreenAnywhere name => exact h.addScreenAnywhere name
  | placeNextTo name anchor side => exact h.placeNextTo name anchor side
  | adoptScreens other => exact h.adoptScreens other
  | moveTo index x y => exact h.moveTo index x y
  | setScreenSettings index settings => exact h.setScreenSettings index settings
  | addDisplay index => exact h.addDisplay index
  | removeDisplay index display => exact h.removeDisplay index display
  | setScale index percent => exact h.setScale index percent
  | useMeasuredScale index => exact h.useMeasuredScale index
  | reportDisplays name displays => exact h.reportDisplays hok name displays
  | useReportedDisplays index => exact h.useReportedDisplays index
  | renameScreen index name => exact h.renameScreen index name
  | removeScreen index => exact h.removeScreen index
  | setServerName name => exact h.setServerName name
  | restart => exact h.restart hok

lemma inv_initial (h : m.Initial) : Inv m := by
  rcases h with rfl | rfl
  · exact ⟨List.Pairwise.nil, by simp [empty], by simp [empty]⟩
  · refine ⟨List.Pairwise.nil, by simp [empty], fun store hstore => ?_⟩
    cases hstore
    exact ⟨List.Pairwise.nil, by simp [emptyStore]⟩

theorem desktops_apart (qt : Qt) (m : LayoutModel) (hrun : Reachable Initial (next qt) (Kept qt) m) :
    AllApart m.screens := by
  have hinv : Inv m := hrun.invariant (fun _ h => inv_initial h) fun s op t h hok hnext => by
    rw [← Option.some.inj hnext]
    exact h.apply hok
  exact hinv.screens

def asciiQt : Qt := ⟨fun c => c == ' ', Char.toLower, caseless, id⟩

theorem desktops_apart_replugged : ∃ m : LayoutModel, m.setups.length = 2 ∧ AllApart m.screens := by
  have hreached : ∃ m, Reachable Initial (next asciiQt) (Kept asciiQt) m ∧ m.setups.length = 2 :=
    Reachable.exists_of_run (.inr rfl)
      [.addScreen ['a'] 0 0, .reportDisplays ['a'] [⟨0, 0, 1920, 1080, 0, 0⟩], .addScreenAnywhere ['b'],
        .reportDisplays ['a'] [⟨0, 0, 1920, 1080, 0, 0⟩, ⟨1920, 0, 2560, 1440, 0, 0⟩], .restart,
        .reportDisplays ['a'] [⟨0, 0, 1920, 1080, 0, 0⟩]] (by decide)
  obtain ⟨m, hrun, hsetups⟩ := hreached
  exact ⟨m, hsetups, desktops_apart asciiQt m hrun⟩

/-- A display further than the greatest coordinate from the corner of its desktop is moved when it is loaded. -/
theorem desktops_overlap_after_restart : ∃ m : LayoutModel,
    Reachable Initial (next asciiQt) (fun _ _ => True) m ∧ ¬AllApart m.screens :=
  Reachable.exists_of_run (.inr rfl)
    [.reportDisplays ['b'] [⟨-100000, 0, 100000, 4958, 10000, 9999⟩, ⟨100000, 0, 100000, 100000, 5292, 5292⟩],
      .adoptScreens { empty none with screens := [.new ['b']] }, .addScreen ['c'] 400000 0, .restart]
    (by decide +kernel)

end LayoutModel

end InputLeap.Gui
