import InputLeap.Gui.Replugged

/-! Whether the second of two reports leads back: a setup has the old places, or the desktop takes back what it has done
to its neighbours, or the first report did nothing to begin with. -/

namespace InputLeap.Gui

open InputLeap.Lib

namespace LayoutModel

variable {qt : Qt} {m m' : LayoutModel} {name : Name} {i : ℕ} {s t : ScreenConfig}
  {clean displays : List DisplayConfig} {screens : List ScreenConfig}

/-- No setup is found, and the displays are the old ones once they were moved to the corner. -/
def Stays (qt : Qt) (m : LayoutModel) (s : ScreenConfig) (clean : List DisplayConfig) : Prop :=
  (∀ k setup, ¬m.Found qt (qt.toLower s.name) clean k setup) ∧ cleanDisplays clean = s.displays ∧
    s.scaleFor s.displays = s.scale

/-- The first setup that knows all computers with their present displays has their places. -/
def Recorded (qt : Qt) (m : LayoutModel) (s : ScreenConfig) : Prop :=
  ∃ (a : ℕ) (setup : Setup), m.setups[a]? = some setup ∧ KnowsAll qt m (qt.toLower s.name) s.displays setup ∧
    (∀ (j : ℕ) (earlier : Setup), j < a → m.setups[j]? = some earlier →
      ¬KnowsAll qt m (qt.toLower s.name) s.displays earlier) ∧ HoldsPlaces qt setup m.screens

/-- A setup has the places, and the computer does report its displays in the setup that is found for the others. -/
def Restores (qt : Qt) (m : LayoutModel) (s : ScreenConfig) (clean : List DisplayConfig) : Prop :=
  (∀ k setup, m.Found qt (qt.toLower s.name) clean k setup → ∃ stored ∈ setup.find (qt.toLower s.name),
      stored.displaysReported = true ∧ stored.displaysTyped = false) ∧
    ((∀ k setup, ¬m.Found qt (qt.toLower s.name) clean k setup) → cleanDisplays clean ≠ s.displays) ∧
    Recorded qt m s

/-- No setup suits either list of displays, they give the computer its scale, and its desktop takes everything back. -/
def Reverts (qt : Qt) (m : LayoutModel) (i : ℕ) (s : ScreenConfig) (clean : List DisplayConfig) : Prop :=
  (∀ k setup, ¬m.Found qt (qt.toLower s.name) clean k setup) ∧ cleanDisplays clean ≠ s.displays ∧
    (∀ setup ∈ m.setups, ¬m.Suits qt (qt.toLower s.name) s.displays setup) ∧
    (s.showing (cleanDisplays clean)).scaleFor s.displays = s.scale ∧
    FallsBack m.screens i s (s.showing (cleanDisplays clean))

/-- The old displays are as they are reported, the others are other ones, and there is a way back. -/
def Returns (qt : Qt) (m : LayoutModel) (i : ℕ) (s : ScreenConfig) (clean : List DisplayConfig) : Prop :=
  cleanDisplays s.displays = s.displays ∧ s.displays ≠ [] ∧ clean ≠ s.displays ∧
    (Stays qt m s clean ∨ Restores qt m s clean ∨ Reverts qt m i s clean)

/-- A setup knows all computers with their present displays, or none suits either list of them; and the computer was not
put into a setup by hand before it reported anything. -/
def Judged (qt : Qt) (m : LayoutModel) (s : ScreenConfig) (clean : List DisplayConfig) : Prop :=
  ((∃ setup ∈ m.setups, KnowsAll qt m (qt.toLower s.name) s.displays setup) ∨
      (∀ setup ∈ m.setups, ¬m.Suits qt (qt.toLower s.name) s.displays setup) ∧
        ∀ k setup, ¬m.Found qt (qt.toLower s.name) clean k setup) ∧
    ∀ k setup, m.Found qt (qt.toLower s.name) clean k setup → ∀ stored ∈ setup.find (qt.toLower s.name),
      stored.displaysReported = true ∨ stored.displaysTyped = true

def Back (qt : Qt) (m m' : LayoutModel) (name : Name) (displays : List DisplayConfig) : Prop :=
  (m'.reportDisplays qt name displays).1.screens.map ScreenConfig.place = m.screens.map ScreenConfig.place

lemma place_ne_of_displays (h : t.displays ≠ s.displays) : t.place ≠ s.place := fun hplace =>
  h (congrArg (·.2.1) hplace)

lemma place_ne_of_scale (h : t.scale ≠ s.scale) : t.place ≠ s.place := fun hplace => h (congrArg (·.2.2) hplace)

section Never

variable (hindex : m'.indexOf qt name = some i) (hs : m.screens[i]? = some s) (ht : m'.screens[i]? = some t)

include hindex hs ht

lemma not_back_of_unclean (hother : t.displays ≠ s.displays)
    (hclean : ¬(cleanDisplays s.displays = s.displays ∧ s.displays ≠ [])) : ¬Back qt m m' name s.displays := by
  obtain ⟨u, hu, hshown⟩ := @reportDisplays_shown qt m' name i t s.displays hindex ht
  refine places_ne hs hu (place_ne_of_displays ?_)
  rcases hshown with h | ⟨hne, h | h⟩
  · rwa [h]
  · rw [h]
    intro heq
    exact hclean ⟨heq, heq ▸ hne⟩
  · rw [h]
    intro heq
    have hfixed : cleanDisplays s.displays = s.displays := by
      have htwice := cleanDisplays_twice s.displays
      rwa [heq] at htwice
    exact hclean ⟨hfixed, hfixed ▸ hne⟩

lemma not_back_of_refused (hplace : t.place ≠ s.place)
    (hrefused : t.displaysTyped = true ∨ unchangedBy t (cleanDisplays s.displays) = true) :
    ¬Back qt m m' name s.displays := by
  rw [Back, reportDisplays_refused hindex ht hrefused]
  exact places_ne hs ht hplace

end Never

section Gone

variable (hindex : m.indexOf qt name = some i) (hs : m.screens[i]? = some s)
  (hclean : cleanDisplays s.displays = s.displays) (hne : s.displays ≠ [])
  (hgone : Gone qt m m' (qt.toLower s.name) s.displays i t) (hreported : t.displaysReported = true)
  (htyped : t.displaysTyped = false) (hother : t.displays ≠ s.displays)

include hindex hs hclean hne hgone hreported htyped hother

lemma back_iff_holdsPlaces {a : ℕ} {setup : Setup} (hsetup : m.setups[a]? = some setup)
    (hknows : KnowsAll qt m (qt.toLower s.name) s.displays setup)
    (hfirst : ∀ (j : ℕ) (earlier : Setup), j < a → m.setups[j]? = some earlier →
      ¬KnowsAll qt m (qt.toLower s.name) s.displays earlier) :
    Back qt m m' name s.displays ↔ HoldsPlaces qt setup m.screens := by
  rw [Back, second_restores hindex hs hclean hne hgone hreported htyped hother hsetup hknows hfirst]
  exact places_restored_iff (forall₂_names hgone.same) hknows.known

lemma back_of_recorded (h : Recorded qt m s) : Back qt m m' name s.displays := by
  obtain ⟨a, setup, hsetup, hknows, hfirst, hholds⟩ := h
  exact (back_iff_holdsPlaces hindex hs hclean hne hgone hreported htyped hother hsetup hknows hfirst).mpr hholds

lemma recorded_of_back (h : ∃ setup ∈ m.setups, KnowsAll qt m (qt.toLower s.name) s.displays setup)
    (hback : Back qt m m' name s.displays) : Recorded qt m s := by
  obtain ⟨a, setup, hsetup, hknows, hfirst⟩ := exists_first h
  exact ⟨a, setup, hsetup, hknows, hfirst,
    (back_iff_holdsPlaces hindex hs hclean hne hgone hreported htyped hother hsetup hknows hfirst).mp hback⟩

end Gone

section Cases

variable (hindex : m.indexOf qt name = some i) (hs : m.screens[i]? = some s) (hstore : m.store.isSome = true)
  (hfew : m.setups.length < kMaxSetups) (hreported : s.displaysReported = true) (htyped : s.displaysTyped = false)
  (hclean : cleanDisplays s.displays = s.displays) (hne : s.displays ≠ []) (hother : clean ≠ s.displays)

include hindex hs hstore hclean hne hother

lemma back_of_found {k : ℕ} {setup : Setup} (hfound : m.Found qt (qt.toLower s.name) clean k setup)
    (hm : m' = restoredTo qt (m.insertReported name clean) k setup) :
    (Returns qt m i s clean → Back qt m m' name s.displays) ∧
      (Judged qt m s clean → Back qt m m' name s.displays → Returns qt m i s clean) := by
  have hrestored := gone_of_restored (m := m.insertReported name clean) hs hstore hfound hother
  obtain ⟨t, stored, hgone, hstored, hshown, hstoredReported, hstoredTyped⟩ := hrestored
  rw [← hm] at hgone
  have hshownOther : t.displays ≠ s.displays := by rwa [hshown]
  have hindex' : m'.indexOf qt name = some i := (gone_indexOf (m := m.insertReported name clean) hgone).trans hindex
  have hback (hreported : t.displaysReported = true) (htyped : t.displaysTyped = false) (h : Recorded qt m s) :
      Back qt m m' name s.displays :=
    back_of_recorded (m := m.insertReported name clean) hindex hs hclean hne hgone hreported htyped hshownOther h
  constructor
  · rintro ⟨-, -, -, h | h | h⟩
    · exact absurd hfound (h.1 k setup)
    · obtain ⟨hreports, -, hrecorded⟩ := h
      obtain ⟨stored', hstored', hreported, htyped⟩ := hreports k setup hfound
      obtain rfl := Option.some.inj (hstored.symm.trans hstored')
      exact hback (hstoredReported.trans hreported) (hstoredTyped.trans htyped) hrecorded
    · exact absurd hfound (h.1 k setup)
  · rintro ⟨hknown, hjudged⟩ h
    have hknows := hknown.resolve_right fun hnone => hnone.2 k setup hfound
    have htyped : t.displaysTyped = false := by
      by_contra htyped
      exact not_back_of_refused hindex' hs hgone.changed (place_ne_of_displays hshownOther)
        (.inl (Bool.eq_true_of_not_eq_false htyped)) h
    have hreported : t.displaysReported = true := by
      have heither := hjudged k setup hfound stored hstored
      rw [← hstoredReported, ← hstoredTyped, htyped] at heither
      simpa using heither
    have hrecorded := recorded_of_back (m := m.insertReported name clean) hindex hs hclean hne hgone hreported htyped
      hshownOther hknows h
    refine ⟨hclean, hne, hother, .inr (.inl ⟨fun k' setup' hfound' => ?_, fun hnone => absurd hfound (hnone k setup),
      hrecorded⟩)⟩
    obtain rfl := hfound.unique hfound'
    exact ⟨stored, hstored, hstoredReported.symm.trans hreported, hstoredTyped.symm.trans htyped⟩

omit hstore in
lemma back_of_same (hreported : s.displaysReported = true) (htyped : s.displaysTyped = false)
    (hnone : ∀ k setup, ¬m.Found qt (qt.toLower s.name) clean k setup) (hsame : cleanDisplays clean = s.displays)
    (hresized : Resized m.screens i s (s.showing s.displays) screens)
    (hm : m'.screens = screens) :
    Back qt m m' name s.displays ↔ Returns qt m i s clean := by
  have hat : m'.screens[i]? = some (s.showing s.displays) := hm ▸ resized_getElem? hs hresized
  have hindex' : m'.indexOf qt name = some i := (resized_indexOf hs hm hresized).trans hindex
  have hrefused : unchangedBy (s.showing s.displays) (cleanDisplays s.displays) = true := by
    rw [hclean]
    exact unchangedBy_showing
  by_cases hscale : s.scaleFor s.displays = s.scale
  · refine iff_of_true ?_ ⟨hclean, hne, hother, .inl ⟨hnone, hsame, hscale⟩⟩
    rw [Back, reportDisplays_refused hindex' hat (.inr hrefused), hm]
    rw [showing_eq hreported htyped hscale] at hresized
    rw [resized_self hs hresized]
  · refine iff_of_false (not_back_of_refused hindex' hs hat (place_ne_of_scale hscale) (.inr hrefused)) ?_
    rintro ⟨-, -, -, h | h | h⟩
    · exact hscale h.2.2
    · exact h.2.1 hnone hsame
    · exact h.2.1 hsame

omit hstore hother in
lemma back_iff_reverts (hreported : s.displaysReported = true) (htyped : s.displaysTyped = false)
    (hnew : cleanDisplays clean ≠ s.displays)
    (hgone : Gone qt m m' (qt.toLower s.name) s.displays i (s.showing (cleanDisplays clean)))
    (hresized : Resized m.screens i s (s.showing (cleanDisplays clean)) m'.screens)
    (hsuits : ∀ setup ∈ m.setups, ¬m.Suits qt (qt.toLower s.name) s.displays setup) :
    Back qt m m' name s.displays ↔ (s.showing (cleanDisplays clean)).scaleFor s.displays = s.scale ∧
      FallsBack m.screens i s (s.showing (cleanDisplays clean)) := by
  have hplace : (s.showing (cleanDisplays clean)).place ≠ s.place := place_ne_of_displays hnew
  have hcorner : (s.showing (cleanDisplays clean)).x = s.x ∧ (s.showing (cleanDisplays clean)).y = s.y := ⟨rfl, rfl⟩
  rw [Back, second_resizes hindex hs hclean hne hgone rfl rfl hnew hsuits]
  by_cases hscale : (s.showing (cleanDisplays clean)).scaleFor s.displays = s.scale
  · have hshown : (s.showing (cleanDisplays clean)).showing s.displays = s := by
      rw [ScreenConfig.showing, hscale]
      exact showing_self hreported htyped
    rw [hshown, resized_back hs hcorner.1 hcorner.2 hplace hresized, and_iff_right hscale]
  · refine iff_of_false ?_ fun h => hscale h.1
    obtain ⟨u, hu, hshown⟩ := @resize_getElem? i (s.showing (cleanDisplays clean)) m'.screens
      ((s.showing (cleanDisplays clean)).showing s.displays) hgone.changed
    refine places_ne hs hu ?_
    rcases hshown with rfl | rfl
    · exact hplace
    · exact place_ne_of_scale hscale

include hfew in
lemma back_of_resized (hreported : s.displaysReported = true) (htyped : s.displaysTyped = false)
    (hnone : ∀ k setup, ¬m.Found qt (qt.toLower s.name) clean k setup) (hnew : cleanDisplays clean ≠ s.displays)
    (hresized : Resized m.screens i s (s.showing (cleanDisplays clean)) screens)
    (hm : m' = save qt { m.insertReported name clean with activeSetup := none, screens := screens }) :
    (Returns qt m i s clean → Back qt m m' name s.displays) ∧
      (Judged qt m s clean → Back qt m m' name s.displays → Returns qt m i s clean) := by
  have hscreens : m'.screens = screens := by rw [hm, save_screens]
  have hgone : Gone qt (m.insertReported name clean) m' (qt.toLower s.name) s.displays i
      (s.showing (cleanDisplays clean)) := by
    rw [hm]
    exact gone_of_resized (m := m.insertReported name clean) hs hstore hfew hresized
  have hreverts := @back_iff_reverts qt (m.insertReported name clean) m' name i s clean hindex hs hclean hne
    hreported htyped hnew hgone (hscreens ▸ hresized)
  constructor
  · rintro ⟨-, -, -, h | h | h⟩
    · exact absurd h.2.1 hnew
    · exact back_of_recorded (m := m.insertReported name clean) hindex hs hclean hne hgone rfl rfl hnew h.2.2
    · exact (hreverts h.2.2.1).mpr h.2.2.2
  · rintro ⟨hknows | ⟨hsuits, -⟩, -⟩ h
    · have hrecorded := recorded_of_back (m := m.insertReported name clean) hindex hs hclean hne hgone rfl rfl hnew hknows h
      exact ⟨hclean, hne, hother, .inr (.inl ⟨fun k setup hfound => absurd hfound (hnone k setup), fun _ => hnew,
        hrecorded⟩)⟩
    · exact ⟨hclean, hne, hother, .inr (.inr ⟨hnone, hnew, hsuits, (hreverts hsuits).mp h⟩)⟩

end Cases

lemma scaleFor_ne (hzero : s.measuredFor displays ≠ 0) (hscale : s.measuredFor displays ≠ s.scale) :
    s.scaleFor displays ≠ s.scale := by
  have hnonneg : 0 ≤ s.measuredFor displays := s.measuredFor_nonneg
  rwa [ScreenConfig.scaleFor, if_pos (by omega)]

lemma cleanDisplays_ne_nil (h : Report displays) (hne : displays ≠ []) : cleanDisplays displays ≠ [] := by
  rwa [cleanDisplays_capped h, Ne, List.map_eq_nil_iff]

lemma shown_ne (hclean : ¬(cleanDisplays displays = displays ∧ displays ≠ [])) (reported : List DisplayConfig)
    (hne : cleanDisplays reported ≠ []) : cleanDisplays (cleanDisplays reported) ≠ displays := by
  rintro rfl
  exact hclean ⟨cleanDisplays_twice reported, cleanDisplays_ne_nil (cleanDisplays_report reported) hne⟩

theorem reportDisplays_back (qt : Qt) (m : LayoutModel) (name : Name) (displays : List DisplayConfig) (i : ℕ)
    (s : ScreenConfig) (hstore : m.store.isSome = true) (hfew : m.setups.length < kMaxSetups)
    (hindex : m.indexOf qt name = some i) (hs : m.screens[i]? = some s) (hreported : s.displaysReported = true)
    (hreport : (m.reportDisplays qt name displays).2 = true) :
    (Returns qt m i s (cleanDisplays displays) → Back qt m (m.reportDisplays qt name displays).1 name s.displays) ∧
      (Judged qt m s (cleanDisplays displays) → Back qt m (m.reportDisplays qt name displays).1 name s.displays →
        Returns qt m i s (cleanDisplays displays)) := by
  obtain ⟨m', hm'⟩ : ∃ m', m.reportDisplays qt name displays = (m', true) := ⟨_, Prod.ext rfl hreport⟩
  rw [hm']
  dsimp only
  obtain ⟨hne, htyped, ⟨hsame, hzero, hscale, screens, hresized, hm⟩ |
    ⟨hother, ⟨k, setup, hfound, hm⟩ | ⟨hnone, screens, hresized, hm⟩⟩⟩ := report_cases hindex hs hreported hstore hm'
  · -- only the scale was another one
    have hscreens : m'.screens = screens := by rw [hm, save_screens]
    have hat : m'.screens[i]? = some (s.showing (cleanDisplays s.displays)) := hscreens ▸ resized_getElem? hs hresized
    have hindex' : m'.indexOf qt name = some i := (resized_indexOf hs hscreens hresized).trans hindex
    have hback : ¬Back qt m m' name s.displays := by
      by_cases hclean : cleanDisplays s.displays = s.displays
      · rw [hclean] at hat
        refine not_back_of_refused hindex' hs hat (place_ne_of_scale (scaleFor_ne hzero hscale)) (.inr ?_)
        rw [hclean]
        exact unchangedBy_showing
      · exact not_back_of_unclean hindex' hs hat hclean fun h => hclean h.1
    exact ⟨fun h => absurd hsame h.2.2.1, fun _ h => absurd h hback⟩
  · by_cases hclean : cleanDisplays s.displays = s.displays ∧ s.displays ≠ []
    · exact back_of_found hindex hs hstore hclean.1 hclean.2 hother hfound hm
    · obtain ⟨t, stored, hgone, -, hshown, -⟩ := gone_of_restored
        (m := m.insertReported name (cleanDisplays displays)) hs hstore hfound hother
      rw [← hm] at hgone
      have hback := not_back_of_unclean ((gone_indexOf (m := m.insertReported name (cleanDisplays displays)) hgone).trans
        hindex) hs hgone.changed (by rwa [hshown]) hclean
      exact ⟨fun h => absurd ⟨h.1, h.2.1⟩ hclean, fun _ h => absurd h hback⟩
  · have hscreens : m'.screens = screens := by rw [hm, save_screens]
    by_cases hclean : cleanDisplays s.displays = s.displays ∧ s.displays ≠ []
    · by_cases hnew : cleanDisplays (cleanDisplays displays) = s.displays
      · rw [hnew] at hresized
        have hback := back_of_same hindex hs hclean.1 hclean.2 hother hreported htyped hnone hnew hresized hscreens
        exact ⟨hback.mpr, fun _ => hback.mp⟩
      · exact back_of_resized hindex hs hstore hfew hclean.1 hclean.2 hother hreported htyped hnone hnew hresized hm
    · have hgone : Gone qt (m.insertReported name (cleanDisplays displays)) m' (qt.toLower s.name) s.displays i
          (s.showing (cleanDisplays (cleanDisplays displays))) := by
        rw [hm]
        exact gone_of_resized (m := m.insertReported name (cleanDisplays displays)) hs hstore hfew hresized
      have hback := not_back_of_unclean ((gone_indexOf (m := m.insertReported name (cleanDisplays displays)) hgone).trans
        hindex) hs hgone.changed (shown_ne hclean displays hne) hclean
      exact ⟨fun h => absurd ⟨h.1, h.2.1⟩ hclean, fun _ h => absurd h hback⟩

def laptop : DisplayConfig := ⟨0, 0, 1920, 1080, 0, 0⟩
def monitor : DisplayConfig := ⟨1920, 0, 1920, 1080, 0, 0⟩

/-- A laptop, told of by its displays, and a computer beside it, with their setup in the store. -/
def recorded : LayoutModel :=
  (((empty (some emptyStore)).addScreen asciiQt ['a'] 0 0).1.reportDisplays asciiQt ['a'] [laptop]).1.addScreenAnywhere
    asciiQt ['b'] |>.1

theorem reportDisplays_back_recorded :
    (recorded.reportDisplays asciiQt ['a'] [laptop, monitor]).2 = true ∧
      Back asciiQt recorded (recorded.reportDisplays asciiQt ['a'] [laptop, monitor]).1 ['a'] [laptop] := by
  have hreport : (recorded.reportDisplays asciiQt ['a'] [laptop, monitor]).2 = true := by decide
  have hscreen : recorded.screens[0]? =
      some { ScreenConfig.new ['a'] with displays := [laptop], displaysReported := true } := by decide
  have hnone : recorded.bestSetup asciiQt (asciiQt.toLower ['a']) (cleanDisplays [laptop, monitor]) = none := by decide
  have hrecorded : Recorded asciiQt recorded
      { ScreenConfig.new ['a'] with displays := [laptop], displaysReported := true } :=
    ⟨0, Setup.ofScreens asciiQt recorded.screens, by decide, by decide, fun j _ hj => absurd hj (Nat.not_lt_zero j),
      by decide⟩
  exact ⟨hreport, (reportDisplays_back asciiQt recorded ['a'] [laptop, monitor] 0
    { ScreenConfig.new ['a'] with displays := [laptop], displaysReported := true } (by decide) (by decide) (by decide)
    hscreen rfl hreport).1 ⟨by decide, by decide, by decide,
      .inr (.inl ⟨fun k setup hfound => absurd hfound (bestSetup_eq_none.mp hnone k setup), fun _ => by decide,
        hrecorded⟩)⟩⟩

/-- Saved before there were setups, with the other computer below the monitor that goes away and comes back. -/
def unrecorded : LayoutModel :=
  (empty (some ⟨[{ ScreenConfig.new ['a'] with displays := [laptop, monitor], displaysReported := true },
    { ScreenConfig.new ['b'] with x := 1920, y := 1080 }], [], none⟩)).load asciiQt

theorem reportDisplays_back_unrecorded :
    ¬∀ (qt : Qt) (store : LayoutStore) (m : LayoutModel) (name : Name) (displays : List DisplayConfig) (i : ℕ)
      (s : ScreenConfig), m = (empty (some store)).load qt → m.setups.length < kMaxSetups →
      m.indexOf qt name = some i → m.screens[i]? = some s → s.displaysReported = true → s.displaysTyped = false →
      (m.reportDisplays qt name displays).2 = true →
      ((m.reportDisplays qt name displays).1.reportDisplays qt name s.displays).1.screens.map ScreenConfig.place =
        m.screens.map ScreenConfig.place := by
  intro h
  have hback := h asciiQt _ unrecorded ['a'] [laptop] 0
    { ScreenConfig.new ['a'] with displays := [laptop, monitor], displaysReported := true } rfl (by decide)
    (by decide) (by decide) rfl rfl (by decide)
  revert hback
  decide

end LayoutModel

end InputLeap.Gui

