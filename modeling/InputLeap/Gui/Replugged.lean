import InputLeap.Gui.DisplayReports
import InputLeap.Gui.PushedBack
import InputLeap.Gui.SoundLayout

/-! A monitor is plugged in and taken away again. The first report restores the setup that fits it, or makes the desktop
bigger or smaller and starts a setup of its own; so does the second one. -/

namespace InputLeap.Gui

open InputLeap.Lib

namespace ScreenConfig

def measuredFor (s : ScreenConfig) (displays : List DisplayConfig) : ℤ :=
  if s.scaleTyped then 0 else measuredScale displays

def scaleFor (s : ScreenConfig) (displays : List DisplayConfig) : ℤ :=
  if 0 < s.measuredFor displays then s.measuredFor displays else s.scale

def showing (s : ScreenConfig) (displays : List DisplayConfig) : ScreenConfig :=
  { s with
    displays := displays
    scale := s.scaleFor displays
    displaysReported := true
    displaysTyped := false }

variable {s : ScreenConfig} {displays : List DisplayConfig}

lemma measuredFor_nonneg : 0 ≤ s.measuredFor displays := by
  rw [measuredFor]
  split_ifs
  · exact le_rfl
  · by_cases hzero : measuredScale displays = 0
    · exact hzero.ge
    · exact (by decide : (0 : ℤ) ≤ kMinScale).trans (LayoutModel.scaled_measured hzero).1

lemma normaliseDisplays_report (h : Report displays) (hne : displays ≠ []) (s : ScreenConfig) :
    ({ s with displays := displays } : ScreenConfig).normaliseDisplays = { s with displays := cleanDisplays displays } := by
  have hcornered := h.cornered hne
  have hclamped : displays.map DisplayConfig.clamped = displays.map DisplayConfig.capped := by
    refine List.map_congr_left fun d hd => ?_
    obtain ⟨⟨hx, hx'⟩, ⟨hy, hy'⟩, ⟨hw, hw'⟩, ⟨hh, hh'⟩, -⟩ := h.written d hd
    rw [kMaxDimension] at *
    simp only [DisplayConfig.clamped, DisplayConfig.capped, qBound, kMaxDimension, DisplayConfig.mk.injEq, and_true]
    omega
  have hsame : ({ s with displays := displays } : ScreenConfig).normaliseDisplays =
      ({ s with displays := displays.map DisplayConfig.capped } : ScreenConfig).normaliseDisplays := by
    rw [normaliseDisplays, normaliseDisplays, map_clamped hcornered, hclamped]
    cases displays.map DisplayConfig.capped <;> rfl
  rw [hsame, cleanDisplays_capped h]
  exact normaliseDisplays_eq hcornered

end ScreenConfig

lemma cleanDisplays_twice (r : List DisplayConfig) :
    cleanDisplays (cleanDisplays (cleanDisplays r)) = cleanDisplays (cleanDisplays r) := by
  have hreport := cleanDisplays_report r
  rw [cleanDisplays_eq_iff (cleanDisplays_report (cleanDisplays r)), cleanDisplays_capped hreport]
  intro d hd
  obtain ⟨e, -, rfl⟩ := List.mem_map.mp hd
  exact ⟨min_le_right _ _, min_le_right _ _⟩

namespace LayoutModel

variable {qt : Qt} {m m' : LayoutModel} {name : Name} {i : ℕ} {s t : ScreenConfig} {reported clean : List DisplayConfig}

section Reports

lemma applyDisplays_eq (h : Report clean) (hne : clean ≠ []) (hs : m.screens[i]? = some s) :
    m.applyDisplays qt i clean = m.applyGeometry qt i (s.showing (cleanDisplays clean)) := by
  rw [applyDisplays, hs]
  dsimp only
  rw [ScreenConfig.normaliseDisplays_report h hne]
  rfl

lemma ne_nil_of_indexOf (h : m.indexOf qt name = some i) : name ≠ [] := by
  rintro rfl
  simp [indexOf] at h

lemma reportDisplays_eq (hindex : m.indexOf qt name = some i) (hs : m.screens[i]? = some s)
    (hclean : cleanDisplays reported ≠ []) : m.reportDisplays qt name reported =
      if s.displaysTyped ∨ unchangedBy s (cleanDisplays reported) then
        (m.insertReported name (cleanDisplays reported), false)
      else if s.displaysReported && decide (s.displays ≠ cleanDisplays reported) && m.store.isSome then
        (m.insertReported name (cleanDisplays reported)).switchSetup qt i (cleanDisplays reported)
      else (m.insertReported name (cleanDisplays reported)).applyDisplays qt i (cleanDisplays reported) := by
  have hindex' : (m.insertReported name (cleanDisplays reported)).indexOf qt name = some i := hindex
  have hs' : (m.insertReported name (cleanDisplays reported)).screens[i]? = some s := hs
  rw [reportDisplays]
  dsimp only
  rw [if_neg (by simp [ne_nil_of_indexOf hindex, hclean]), hindex']
  dsimp only
  rw [hs']
  rfl

lemma unchangedBy_iff : unchangedBy s clean = true ↔ s.displays = clean ∧ s.displaysReported = true ∧
    (s.measuredFor clean = 0 ∨ s.measuredFor clean = s.scale) := by
  rw [unchangedBy, Bool.and_eq_true, Bool.and_eq_true, decide_eq_true_eq, decide_eq_true_eq, and_assoc]
  rfl

def restoredTo (qt : Qt) (m : LayoutModel) (k : ℕ) (setup : Setup) : LayoutModel :=
  save qt { (m.unknown qt setup).foldl clearAside { m with screens := m.screens.map (restoreScreen qt setup) } with
    activeSetup := some k }

lemma restoreSetup_found {k : ℕ} {setup : Setup} (hs : m.screens[i]? = some s)
    (hfound : m.Found qt (qt.toLower s.name) clean k setup) : m.restoreSetup qt i clean = some (restoredTo qt m k setup) := by
  rw [restoreSetup, hs, Option.bind_some, bestSetup_eq_some.mpr ⟨setup, hfound⟩, Option.bind_some, hfound.1]
  rfl

lemma restoreSetup_none (hs : m.screens[i]? = some s)
    (hnone : ∀ k setup, ¬m.Found qt (qt.toLower s.name) clean k setup) : m.restoreSetup qt i clean = none := by
  rw [restoreSetup, hs, Option.bind_some, bestSetup_eq_none.mpr hnone, Option.bind_none]

lemma applyGeometry_screens {probe : ScreenConfig} (hs : m.screens[i]? = some s) :
    (m.applyGeometry qt i probe).1.screens = resize m.screens i s probe := by
  rw [applyGeometry, hs, resize, movedAlong]
  dsimp only
  split_ifs
  · exact save_screens _
  · exact save_screens _
  · rfl

lemma applyGeometry_false {probe : ScreenConfig} (happlied : (m.applyGeometry qt i probe).2 = false) :
    (m.applyGeometry qt i probe).1 = m := by
  rw [applyGeometry] at happlied ⊢
  cases hs : m.screens[i]? with
  | none => rfl
  | some s =>
    rw [hs] at happlied
    dsimp only at happlied ⊢
    split_ifs at happlied ⊢
    rfl

lemma switchSetup_none (h : Report clean) (hne : clean ≠ []) (hs : m.screens[i]? = some s)
    (hnone : ∀ k setup, ¬m.Found qt (qt.toLower s.name) clean k setup) :
    (m.switchSetup qt i clean).1.screens = resize m.screens i s (s.showing (cleanDisplays clean)) := by
  have hs' : ({ m with activeSetup := none } : LayoutModel).screens[i]? = some s := hs
  have happly : ({ m with activeSetup := none } : LayoutModel).applyDisplays qt i clean = _ := applyDisplays_eq h hne hs'
  have hscreens := @applyGeometry_screens qt { m with activeSetup := none } i s (s.showing (cleanDisplays clean)) hs'
  rw [switchSetup, restoreSetup_none hs hnone, happly]
  dsimp only
  split
  · rename_i m' happlied
    rw [happlied] at hscreens
    exact hscreens
  · rename_i m' happlied
    rw [← hscreens, applyGeometry_false (by rw [happlied])]

lemma applyGeometry_true {probe : ScreenConfig} (hs : m.screens[i]? = some s)
    (happlied : m.applyGeometry qt i probe = (m', true)) :
    ∃ screens, Resized m.screens i s probe screens ∧ m' = save qt { m with screens := screens } := by
  rw [applyGeometry, hs] at happlied
  dsimp only at happlied
  split_ifs at happlied with hmoved hunchanged
  · exact ⟨_, .inl ⟨hmoved, rfl⟩, (congrArg Prod.fst happlied).symm⟩
  · exact ⟨_, .inr ⟨Bool.eq_false_of_not_eq_true hmoved, hunchanged, rfl⟩, (congrArg Prod.fst happlied).symm⟩
  · cases happlied

lemma report_cases (hindex : m.indexOf qt name = some i) (hs : m.screens[i]? = some s) (hreported : s.displaysReported = true)
    (hstore : m.store.isSome = true) (hreport : m.reportDisplays qt name reported = (m', true)) :
    cleanDisplays reported ≠ [] ∧ s.displaysTyped = false ∧
      (cleanDisplays reported = s.displays ∧ s.measuredFor s.displays ≠ 0 ∧ s.measuredFor s.displays ≠ s.scale ∧
          (∃ screens, Resized m.screens i s (s.showing (cleanDisplays s.displays)) screens ∧
            m' = save qt { m.insertReported name s.displays with screens := screens }) ∨
        cleanDisplays reported ≠ s.displays ∧
          ((∃ k setup, m.Found qt (qt.toLower s.name) (cleanDisplays reported) k setup ∧
              m' = restoredTo qt (m.insertReported name (cleanDisplays reported)) k setup) ∨
            (∀ k setup, ¬m.Found qt (qt.toLower s.name) (cleanDisplays reported) k setup) ∧
              ∃ screens, Resized m.screens i s (s.showing (cleanDisplays (cleanDisplays reported))) screens ∧
                m' = save qt { m.insertReported name (cleanDisplays reported) with
                  activeSetup := none, screens := screens })) := by
  have hclean : cleanDisplays reported ≠ [] := by
    intro hnil
    simp [reportDisplays, hnil] at hreport
  have hclean' := cleanDisplays_report reported
  rw [reportDisplays_eq hindex hs hclean] at hreport
  generalize cleanDisplays reported = clean at hclean hclean' hreport ⊢
  have hs' : (m.insertReported name clean).screens[i]? = some s := hs
  split_ifs at hreport with hrefused hother
  · cases hreport
  · obtain ⟨htyped, hchanged⟩ := not_or.mp hrefused
    simp only [hreported, hstore, Bool.true_and, Bool.and_true, decide_eq_true_eq] at hother
    refine ⟨hclean, Bool.eq_false_of_not_eq_true htyped, .inr ⟨fun h => hother h.symm, ?_⟩⟩
    rw [switchSetup] at hreport
    by_cases hfound : ∃ k setup, m.Found qt (qt.toLower s.name) clean k setup
    · obtain ⟨k, setup, hfound⟩ := hfound
      rw [restoreSetup_found (m := m.insertReported name clean) hs' hfound] at hreport
      exact .inl ⟨k, setup, hfound, (congrArg Prod.fst hreport).symm⟩
    · have hnone : ∀ k setup, ¬m.Found qt (qt.toLower s.name) clean k setup :=
        fun k setup h => hfound ⟨k, setup, h⟩
      rw [restoreSetup_none (m := m.insertReported name clean) hs' hnone] at hreport
      dsimp only at hreport
      rw [applyDisplays_eq (m := { m.insertReported name clean with activeSetup := none }) hclean' hclean hs'] at hreport
      refine .inr ⟨hnone, ?_⟩
      split at hreport
      · rename_i happlied
        obtain ⟨screens, hresized, hm⟩ := applyGeometry_true
          (m := { m.insertReported name clean with activeSetup := none }) hs' happlied
        obtain rfl := congrArg Prod.fst hreport
        exact ⟨screens, hresized, hm⟩
      · cases hreport
  · obtain ⟨htyped, hchanged⟩ := not_or.mp hrefused
    have hsame : clean = s.displays := by
      by_contra hne
      exact hother (by simp [hreported, hstore, Ne.symm hne])
    subst hsame
    rw [unchangedBy_iff] at hchanged
    have hmeasured : ¬(s.measuredFor s.displays = 0 ∨ s.measuredFor s.displays = s.scale) :=
      fun h => hchanged ⟨rfl, hreported, h⟩
    obtain ⟨hzero, hscale⟩ := not_or.mp hmeasured
    rw [applyDisplays_eq (m := m.insertReported name s.displays) hclean' hclean hs'] at hreport
    exact ⟨hclean, Bool.eq_false_of_not_eq_true htyped,
      .inl ⟨rfl, hzero, hscale, applyGeometry_true (m := m.insertReported name s.displays) hs' hreport⟩⟩

end Reports

section First

variable {key : Name} {displays : List DisplayConfig}

/-- A computer has gone over to other displays, and the setups with those that it had are still there. -/
structure Gone (qt : Qt) (m m' : LayoutModel) (key : Name) (displays : List DisplayConfig) (i : ℕ) (t : ScreenConfig) : Prop where
  same : List.Forall₂ (SameOthers qt key) m.screens m'.screens
  changed : m'.screens[i]? = some t
  stored : m'.store.isSome = true
  kept : ∀ (a : ℕ) (setup : Setup), m.setups[a]? = some setup →
    (setup.find key).map ScreenConfig.displays = some displays →
      ∃ b, m'.setups[b]? = some setup ∧ m'.activeSetup ≠ some b ∧
        ∀ (j : ℕ) (earlier : Setup), j < b → m'.setups[j]? = some earlier → m'.activeSetup ≠ some j →
          ∃ k < a, m.setups[k]? = some earlier
  old : ∀ (b : ℕ) (setup : Setup), m'.setups[b]? = some setup → m'.activeSetup ≠ some b → setup ∈ m.setups

lemma gone_of_restored {k : ℕ} {found : Setup} (hs : m.screens[i]? = some s) (hstore : m.store.isSome = true)
    (hfound : m.Found qt (qt.toLower s.name) clean k found) (hne : clean ≠ displays) :
    ∃ t stored, Gone qt m (restoredTo qt m k found) (qt.toLower s.name) displays i t ∧
      found.find (qt.toLower s.name) = some stored ∧ t.displays = clean ∧
        t.displaysReported = stored.displaysReported ∧ t.displaysTyped = stored.displaysTyped := by
  obtain ⟨hsetup, -, hsuits, -⟩ := hfound
  obtain ⟨stored, hstoredFind, hdisplays⟩ := Option.map_eq_some_iff.mp hsuits.1
  rw [restoredTo]
  generalize hrestore : ({ m with screens := m.screens.map (restoreScreen qt found) } : LayoutModel) = m₀
  have hscreens : m₀.screens = m.screens.map (restoreScreen qt found) := by rw [← hrestore]
  have hmoved := foldl_clearAside_moved (m.unknown qt found) m₀
  obtain ⟨hsetups, hstored⟩ := foldl_clearAside_frame (m.unknown qt found) m₀
  have hsetups₀ : m₀.setups = m.setups := by rw [← hrestore]
  have hstore₀ : m₀.store = m.store := by rw [← hrestore]
  generalize (m.unknown qt found).foldl clearAside m₀ = m₁ at hmoved hsetups hstored
  have hstore₁ : ({ m₁ with activeSetup := some k } : LayoutModel).store.isSome = true := by
    change m₁.store.isSome = true
    rw [hstored, hstore₀]
    exact hstore
  obtain ⟨hk, -⟩ := List.getElem?_eq_some_iff.mp hsetup
  have hsetups₁ : m₁.setups = m.setups := hsetups.trans hsetups₀
  have hrecorded := @recordSetup_active qt { m₁ with activeSetup := some k } k rfl
    (by rw [hsetups₁]; exact hk)
  obtain ⟨hsaved, hsavedActive⟩ := @save_setups qt _ hstore₁
  have hother {b : ℕ} (hb : k ≠ b) :
      (save qt { m₁ with activeSetup := some k }).setups[b]? = m.setups[b]? := by
    rw [hsaved, hrecorded.1, List.getElem?_set_ne hb]
    exact congrArg (·[b]?) hsetups₁
  have hactive : (save qt { m₁ with activeSetup := some k }).activeSetup = some k := by
    rw [hsavedActive, hrecorded.2]
  have hrestoredScreen : m₀.screens[i]? = some (restored s stored) := by
    rw [hscreens, List.getElem?_map, hs]
    simp [restoreScreen, hstoredFind]
  obtain ⟨t, ht, htmoved⟩ := forall₂_getElem? hmoved hrestoredScreen
  refine ⟨t, stored, ⟨?_, ?_, ?_, ?_, ?_⟩, hstoredFind, htmoved.2.1.trans hdisplays, htmoved.2.2.1, htmoved.2.2.2⟩
  · rw [save_screens]
    refine forall₂_trans (R := SameOthers qt (qt.toLower s.name)) (S := Moved) ?_
      (forall₂_map_right (restoreScreen qt found) fun t ht => restoreScreen_sameOthers hsuits ht) (hscreens ▸ hmoved)
    intro t u v htu huv
    exact ⟨huv.1.trans htu.1, fun hkey => huv.2.1.trans (htu.2 hkey)⟩
  · rw [save_screens]
    exact ht
  · rw [save_store_isSome]
    exact hstore₁
  · intro a setup hsetup' hfind
    -- the setup that was restored has other displays
    have hka : k ≠ a := by
      rintro rfl
      obtain rfl := Option.some.inj (hsetup.symm.trans hsetup')
      rw [hstoredFind, Option.map_some, hdisplays] at hfind
      exact hne (Option.some.inj hfind)
    refine ⟨a, (hother hka).trans hsetup', by rw [hactive]; simpa using hka, fun j earlier hj hearlier hjk => ?_⟩
    rw [hactive] at hjk
    exact ⟨j, hj, (hother (by simpa using hjk)).symm.trans hearlier⟩
  · intro b setup hb hbk
    rw [hactive] at hbk
    exact List.mem_of_getElem? ((hother (by simpa using hbk)).symm.trans hb)

lemma resized_sameOthers {screens : List ScreenConfig} {probe : ScreenConfig} (hs : m.screens[i]? = some s)
    (hname : probe.name = s.name) (h : Resized m.screens i s probe screens) :
    List.Forall₂ (SameOthers qt (qt.toLower s.name)) m.screens screens := by
  have hprobe : SameOthers qt (qt.toLower s.name) s probe := ⟨hname, fun hkey => absurd rfl hkey⟩
  rcases h with ⟨-, rfl⟩ | ⟨-, -, rfl⟩
  · exact forall₂_set (forall₂_map_right _ fun t _ => ⟨rfl, fun _ => rfl⟩) hs hprobe
  · exact forall₂_set (List.forall₂_same.mpr fun t _ => .refl t) hs hprobe

lemma resized_indexOf {screens : List ScreenConfig} (hs : m.screens[i]? = some s) (hm : m'.screens = screens)
    (h : Resized m.screens i s (s.showing clean) screens) : m'.indexOf qt name = m.indexOf qt name := by
  have hsame : List.Forall₂ (SameOthers qt (qt.toLower s.name)) m.screens (m'.screens) := by
    rw [hm]
    exact resized_sameOthers hs (show (s.showing clean).name = s.name from rfl) h
  exact indexOf_congr (forall₂_names hsame)

lemma gone_of_resized {screens : List ScreenConfig} (hs : m.screens[i]? = some s) (hstore : m.store.isSome = true)
    (hfew : m.setups.length < kMaxSetups) (hresized : Resized m.screens i s (s.showing clean) screens) :
    Gone qt m (save qt { m with activeSetup := none, screens := screens }) (qt.toLower s.name) displays i
      (s.showing clean) := by
  obtain ⟨hsaved, hsavedActive⟩ := @save_setups qt { m with activeSetup := none, screens := screens } hstore
  obtain ⟨hnew, hnewActive⟩ := @recordSetup_new qt { m with activeSetup := none, screens := screens } rfl hfew
  have hsetups := hsaved.trans hnew
  have hactive := hsavedActive.trans hnewActive
  refine ⟨?_, ?_, ?_, ?_, ?_⟩
  · rw [save_screens]
    exact resized_sameOthers hs (show (s.showing clean).name = s.name from rfl) hresized
  · rw [save_screens]
    exact resized_getElem? hs hresized
  · rw [save_store_isSome]
    exact hstore
  · intro a setup hsetup _
    refine ⟨a + 1, by rw [hsetups]; exact hsetup, by simp [hactive], fun j earlier hj hearlier hne => ?_⟩
    rw [hsetups] at hearlier
    cases j with
    | zero => exact absurd hactive hne
    | succ j => exact ⟨j, Nat.lt_of_succ_lt_succ hj, hearlier⟩
  · intro b setup hb hne
    rw [hsetups] at hb
    cases b with
    | zero => exact absurd hactive hne
    | succ b => exact List.mem_of_getElem? hb

end First

section Second

def KnowsAll (qt : Qt) (m : LayoutModel) (key : Name) (displays : List DisplayConfig) (setup : Setup) : Prop :=
  m.Suits qt key displays setup ∧ ∀ s ∈ m.others qt key, known qt setup s = true

instance (key : Name) (displays : List DisplayConfig) (setup : Setup) : Decidable (KnowsAll qt m key displays setup) :=
  inferInstanceAs (Decidable (_ ∧ _))

variable {key : Name} {setup : Setup}

lemma knowsAll_iff : KnowsAll qt m key clean setup ↔
    m.Suits qt key clean setup ∧ m.knownOthers qt key setup = (m.others qt key).length := by
  rw [KnowsAll, knownOthers, List.countP_eq_length]

lemma KnowsAll.known (h : KnowsAll qt m key clean setup) :
    ∀ s ∈ m.screens, (setup.find (qt.toLower s.name)).isSome = true := by
  intro s hs
  by_cases hkey : qt.toLower s.name = key
  · obtain ⟨stored, hstored, -⟩ := Option.map_eq_some_iff.mp h.1.1
    rw [hkey, hstored]
    rfl
  · exact h.2 s (List.mem_filter.mpr ⟨hs, by simpa using hkey⟩)

section Reported

variable {displays : List DisplayConfig}
  (hindex : m.indexOf qt name = some i) (hs : m.screens[i]? = some s) (hclean : cleanDisplays displays = displays)
  (hne : displays ≠ []) (hgone : Gone qt m m' (qt.toLower s.name) displays i t) (hreported : t.displaysReported = true)
  (htyped : t.displaysTyped = false) (hother : t.displays ≠ displays)

include hgone in
lemma gone_indexOf : m'.indexOf qt name = m.indexOf qt name := indexOf_congr (forall₂_names hgone.same)

include hs hgone in
lemma gone_name : t.name = s.name := by
  obtain ⟨u, hu, hsame⟩ := forall₂_getElem? hgone.same hs
  obtain rfl := Option.some.inj (hgone.changed.symm.trans hu)
  exact hsame.1

include hindex hclean hne hgone hreported htyped hother

lemma second_switches : m'.reportDisplays qt name displays = (m'.insertReported name displays).switchSetup qt i displays := by
  have hunchanged : ¬(t.displaysTyped = true ∨ unchangedBy t displays = true) := by
    rw [unchangedBy_iff, htyped]
    simp [hother]
  rw [reportDisplays_eq ((gone_indexOf hgone).trans hindex) hgone.changed (by rwa [hclean]), hclean, if_neg hunchanged,
    if_pos (by simp [hreported, hother, hgone.stored])]

include hs

lemma second_restores {a : ℕ} (hsetup : m.setups[a]? = some setup) (hknows : KnowsAll qt m (qt.toLower s.name) displays setup)
    (hfirst : ∀ (j : ℕ) (earlier : Setup), j < a → m.setups[j]? = some earlier →
      ¬KnowsAll qt m (qt.toLower s.name) displays earlier) :
    (m'.reportDisplays qt name displays).1.screens = m'.screens.map (restoreScreen qt setup) := by
  have hnames := forall₂_names hgone.same
  obtain ⟨hsuits, hcount⟩ := knowsAll_iff.mp hknows
  obtain ⟨b, hb, hactive, hkept⟩ := hgone.kept a setup hsetup hsuits.1
  have hfound : m'.Found qt (qt.toLower t.name) displays b setup := by
    rw [gone_name hs hgone]
    refine ⟨hb, hactive, (suits_congr hgone.same).mpr hsuits, fun j other hj hne hother => ?_⟩
    rw [suits_congr hgone.same] at hother
    rw [knownOthers_congr hgone.same, knownOthers_congr hgone.same, hcount]
    refine knownOthers_le.lt_or_eq.imp_right fun hall => ⟨hall, ?_⟩
    by_contra hlt
    obtain ⟨k, hk, hearlier⟩ := hkept j other (not_le.mp hlt) hj hne
    exact hfirst k other hk hearlier (knowsAll_iff.mpr ⟨hother, hall⟩)
  rw [second_switches hindex hclean hne hgone hreported htyped hother, switchSetup,
    restoreSetup_found (m := m'.insertReported name displays) hgone.changed hfound]
  have hunknown : (m'.insertReported name displays).unknown qt setup = [] :=
    unknown_eq_nil (m := m) hnames hknows.known
  dsimp only
  rw [restoredTo, save_screens, hunknown]
  rfl

lemma second_resizes (hnone : ∀ setup ∈ m.setups, ¬m.Suits qt (qt.toLower s.name) displays setup) :
    (m'.reportDisplays qt name displays).1.screens = resize m'.screens i t (t.showing displays) := by
  have hnotFound : ∀ k setup, ¬m'.Found qt (qt.toLower t.name) displays k setup := by
    rw [gone_name hs hgone, not_found_iff]
    intro j other hj hne
    rw [suits_congr hgone.same]
    exact hnone other (hgone.old j other hj hne)
  have hreport : Report displays := hclean ▸ cleanDisplays_report displays
  rw [second_switches hindex hclean hne hgone hreported htyped hother,
    switchSetup_none (m := m'.insertReported name displays) hreport hne hgone.changed hnotFound, hclean]
  rfl

end Reported

end Second

section Back

variable {displays : List DisplayConfig} {screens : List ScreenConfig} {probe : ScreenConfig}

lemma Found.unique {key : Name} {j k : ℕ} {setup other : Setup} (h : m.Found qt key clean k setup)
    (h' : m.Found qt key clean j other) : setup = other := by
  have hk := bestSetup_eq_some.mpr ⟨setup, h⟩
  have hj := bestSetup_eq_some.mpr ⟨other, h'⟩
  obtain rfl := Option.some.inj (hk.symm.trans hj)
  exact Option.some.inj (h.1.symm.trans h'.1)

lemma exists_first {P : Setup → Prop} (h : ∃ setup ∈ m.setups, P setup) :
    ∃ (a : ℕ) (setup : Setup), m.setups[a]? = some setup ∧ P setup ∧
      ∀ (j : ℕ) (earlier : Setup), j < a → m.setups[j]? = some earlier → ¬P earlier := by
  classical
  have hat : ∃ (a : ℕ) (setup : Setup), m.setups[a]? = some setup ∧ P setup := by
    obtain ⟨setup, hsetup, hP⟩ := h
    obtain ⟨a, ha⟩ := List.mem_iff_getElem?.mp hsetup
    exact ⟨a, setup, ha, hP⟩
  obtain ⟨setup, hsetup, hP⟩ := Nat.find_spec hat
  exact ⟨Nat.find hat, setup, hsetup, hP, fun j earlier hj hearlier hearlier' =>
    Nat.find_min hat hj ⟨earlier, hearlier, hearlier'⟩⟩

lemma resize_getElem? (hs : screens[i]? = some s) :
    ∃ u, (resize screens i s probe)[i]? = some u ∧ (u = s ∨ u = probe) := by
  obtain ⟨hi, -⟩ := List.getElem?_eq_some_iff.mp hs
  rw [resize]
  split_ifs
  · exact ⟨probe, by simp [movedAlong, hi], .inr rfl⟩
  · exact ⟨probe, by simp [hi], .inr rfl⟩
  · exact ⟨s, hs, .inl rfl⟩

lemma reportDisplays_shown (hindex : m.indexOf qt name = some i) (hs : m.screens[i]? = some s) :
    ∃ u, (m.reportDisplays qt name reported).1.screens[i]? = some u ∧ (u.displays = s.displays ∨
      cleanDisplays reported ≠ [] ∧ (u.displays = cleanDisplays reported ∨
        u.displays = cleanDisplays (cleanDisplays reported))) := by
  by_cases hclean : cleanDisplays reported = []
  · exact ⟨s, by simpa [reportDisplays, hclean] using hs, .inl rfl⟩
  have hreport := cleanDisplays_report reported
  have hs' : (m.insertReported name (cleanDisplays reported)).screens[i]? = some s := hs
  have hresized (u : ScreenConfig) (hu : u = s ∨ u = s.showing (cleanDisplays (cleanDisplays reported))) :
      u.displays = s.displays ∨ cleanDisplays reported ≠ [] ∧ (u.displays = cleanDisplays reported ∨
        u.displays = cleanDisplays (cleanDisplays reported)) := by
    rcases hu with rfl | rfl
    · exact .inl rfl
    · exact .inr ⟨hclean, .inr rfl⟩
  rw [reportDisplays_eq hindex hs hclean]
  split_ifs with hrefused hother
  · exact ⟨s, hs, .inl rfl⟩
  · by_cases hfound : ∃ k setup, m.Found qt (qt.toLower s.name) (cleanDisplays reported) k setup
    · obtain ⟨k, setup, hfound⟩ := hfound
      have hstore : m.store.isSome = true := by
        rw [Bool.and_eq_true] at hother
        exact hother.2
      obtain ⟨t, stored, hgone, -, hdisplays, -⟩ := gone_of_restored
        (m := m.insertReported name (cleanDisplays reported)) hs' hstore hfound hclean
      rw [switchSetup, restoreSetup_found (m := m.insertReported name (cleanDisplays reported)) hs' hfound]
      exact ⟨t, hgone.changed, .inr ⟨hclean, .inl hdisplays⟩⟩
    · rw [switchSetup_none (m := m.insertReported name (cleanDisplays reported)) hreport hclean hs'
        fun k setup h => hfound ⟨k, setup, h⟩]
      obtain ⟨u, hu, hshown⟩ := @resize_getElem? i s m.screens (s.showing (cleanDisplays (cleanDisplays reported))) hs'
      exact ⟨u, hu, hresized u hshown⟩
  · rw [applyDisplays_eq (m := m.insertReported name (cleanDisplays reported)) hreport hclean hs',
      applyGeometry_screens hs']
    obtain ⟨u, hu, hshown⟩ := @resize_getElem? i s m.screens (s.showing (cleanDisplays (cleanDisplays reported))) hs'
    exact ⟨u, hu, hresized u hshown⟩

lemma reportDisplays_refused (hindex : m.indexOf qt name = some i) (hs : m.screens[i]? = some s)
    (hrefused : s.displaysTyped = true ∨ unchangedBy s (cleanDisplays reported) = true) :
    (m.reportDisplays qt name reported).1.screens = m.screens := by
  by_cases hclean : cleanDisplays reported = []
  · simp [reportDisplays, hclean]
  · rw [reportDisplays_eq hindex hs hclean, if_pos hrefused]
    rfl

lemma unchangedBy_showing : unchangedBy (s.showing displays) displays = true := by
  refine unchangedBy_iff.mpr ⟨rfl, rfl, ?_⟩
  change s.measuredFor displays = 0 ∨ s.measuredFor displays = s.scaleFor displays
  rw [ScreenConfig.scaleFor]
  have hnonneg : 0 ≤ s.measuredFor displays := s.measuredFor_nonneg
  split_ifs
  · exact .inr rfl
  · exact .inl (by omega)

lemma showing_self (hreported : s.displaysReported = true) (htyped : s.displaysTyped = false) :
    { s with displaysReported := true, displaysTyped := false } = s := by
  rw [← hreported, ← htyped]

lemma showing_eq (hreported : s.displaysReported = true) (htyped : s.displaysTyped = false)
    (hscale : s.scaleFor s.displays = s.scale) : s.showing s.displays = s := by
  rw [ScreenConfig.showing, hscale]
  exact showing_self hreported htyped

end Back

end LayoutModel

end InputLeap.Gui
