import InputLeap.Gui.LayoutSettings
import InputLeap.Gui.Setups

/-! A new window reads what the last one has written. It is the same layout if every computer, setup and size fits the
form that it is written in. -/

namespace InputLeap.Gui

open InputLeap.Lib

section Lists

variable {α : Type} {R : α → α → Prop} {f : α → α} {p : α → Bool} {l : List α}

lemma filter_map_eq_iff (hp : ∀ a ∈ l, p (f a) = p a) : (l.map f).filter p = l ↔ ∀ a ∈ l, p a = true ∧ f a = a := by
  constructor
  · intro h a ha
    have hall : ∀ b ∈ l.map f, p b = true := by
      rw [← List.length_filter_eq_length_iff, h, List.length_map]
    rw [List.filter_eq_self.mpr hall] at h
    exact ⟨hp a ha ▸ hall _ (List.mem_map_of_mem ha), List.map_inj_left.mp (h.trans (List.map_id l).symm) a ha⟩
  · intro h
    have hmap : l.map f = l := (List.map_congr_left fun a ha => (h a ha).2).trans (List.map_id l)
    rw [hmap]
    exact List.filter_eq_self.mpr fun a ha => (h a ha).1

end Lists

namespace LayoutModel

/-- What holds of every layout, whatever is done to it. -/
structure Sound (qt : Qt) (m : LayoutModel) : Prop where
  distinct : Distinct qt m.screens
  screens : ∀ s ∈ m.screens, s.Scaled
  keyed : ∀ setup ∈ m.setups, setup.Keyed qt
  setups : ∀ setup ∈ m.setups, ∀ e ∈ setup, e.2.Scaled
  few : m.setups.length ≤ kMaxSetups
  dimming : 0 ≤ m.options.dimmingPercentage ∧ m.options.dimmingPercentage ≤ 100

variable {qt : Qt} {m : LayoutModel}

lemma scaled_ofScreens {screens : List ScreenConfig} (h : ∀ s ∈ screens, s.Scaled) : ∀ e ∈ Setup.ofScreens qt screens, e.2.Scaled := by
  have hfold (rest : List ScreenConfig) : ∀ setup : Setup, (∀ s ∈ rest, s.Scaled) → (∀ e ∈ setup, e.2.Scaled) →
      ∀ e ∈ rest.foldl (fun setup s => setup.insert (qt.toLower s.name) s) setup, e.2.Scaled := by
    induction rest with
    | nil => exact fun setup _ hsetup => hsetup
    | cons s rest ih =>
      intro setup hrest hsetup
      refine ih _ (fun t ht => hrest t (List.mem_cons_of_mem s ht)) fun e he => ?_
      rcases Setup.mem_of_insert he with heq | he
      · rw [heq]
        exact hrest s List.mem_cons_self
      · exact hsetup e he
  exact hfold screens [] h (by simp)

def keptSetups (m : LayoutModel) : List Setup :=
  match m.activeSetup.filter fun i => decide (i < m.setups.length) with
  | some i => m.setups.eraseIdx i
  | none => m.setups.take (kMaxSetups - 1)

lemma mem_recordSetup {setup : Setup} :
    setup ∈ (m.recordSetup qt).setups ↔ setup = Setup.ofScreens qt m.screens ∨ setup ∈ m.keptSetups := by
  rw [recordSetup, keptSetups]
  cases hactive : m.activeSetup.filter fun i => decide (i < m.setups.length) with
  | none => exact List.mem_cons
  | some i =>
    have hi : i < m.setups.length := of_decide_eq_true (Option.filter_eq_some_iff.mp hactive).2
    rw [(List.set_perm_cons_eraseIdx hi _).mem_iff]
    exact List.mem_cons

lemma activeSetup_recordSetup (m : LayoutModel) :
    ∃ i, (m.recordSetup qt).activeSetup = some i ∧ i < (m.recordSetup qt).setups.length := by
  rw [recordSetup]
  cases hactive : m.activeSetup.filter fun i => decide (i < m.setups.length) with
  | none => exact ⟨0, rfl, Nat.zero_lt_succ _⟩
  | some i =>
    obtain ⟨hsome, hi⟩ := Option.filter_eq_some_iff.mp hactive
    refine ⟨i, hsome, ?_⟩
    rw [List.length_set]
    exact of_decide_eq_true hi

lemma recordSetup_eq (m : LayoutModel) : m.recordSetup qt =
    { m with setups := (m.recordSetup qt).setups, activeSetup := (m.recordSetup qt).activeSetup } := by
  rw [recordSetup]
  split <;> rfl

lemma length_recordSetup (h : m.setups.length ≤ kMaxSetups) : (m.recordSetup qt).setups.length ≤ kMaxSetups := by
  rw [recordSetup]
  cases m.activeSetup.filter fun i => decide (i < m.setups.length) with
  | none => exact List.length_take_le _ _
  | some i => exact (List.length_set ..).trans_le h

lemma Sound.recordSetup (h : m.Sound qt) : (m.recordSetup qt).Sound qt := by
  have hmem (setup : Setup) (hsetup : setup ∈ (m.recordSetup qt).setups) : setup.Keyed qt ∧ ∀ e ∈ setup, e.2.Scaled := by
    rcases mem_recordSetup.mp hsetup with rfl | hkept
    · exact ⟨Setup.keyed_ofScreens qt _, scaled_ofScreens h.screens⟩
    · have hold : setup ∈ m.setups := by
        rw [keptSetups] at hkept
        split at hkept
        · exact List.mem_of_mem_eraseIdx hkept
        · exact List.mem_of_mem_take hkept
      exact ⟨h.keyed setup hold, h.setups setup hold⟩
  rw [recordSetup_eq]
  exact ⟨h.distinct, h.screens, fun setup hsetup => (hmem setup hsetup).1, fun setup hsetup => (hmem setup hsetup).2,
    length_recordSetup h.few, h.dimming⟩

lemma Sound.save (h : m.Sound qt) : (m.save qt).Sound qt := by
  rw [LayoutModel.save]
  cases m.store with
  | none => exact h
  | some store =>
    have hrecorded : (m.recordSetup qt).Sound qt := h.recordSetup
    exact ⟨hrecorded.distinct, hrecorded.screens, hrecorded.keyed, hrecorded.setups, hrecorded.few, hrecorded.dimming⟩

end LayoutModel

lemma Hotkey.loaded_loaded (h : Hotkey) : h.loaded.loaded = h.loaded := by
  rw [loaded, loaded, List.map_map]
  rfl

namespace WholeLayout

variable {qt : Qt} {m n : WholeLayout}

structure Same (m n : WholeLayout) : Prop where
  screens : m.screens = n.screens
  options : m.options = n.options ∧ m.ignoreAutoConfigClient = n.ignoreAutoConfigClient ∧
    m.enableDragAndDrop = n.enableDragAndDrop
  hotkeys : m.hotkeys.map Hotkey.loaded = n.hotkeys.map Hotkey.loaded
  setups : List.Forall₂ Setup.Same m.setups n.setups
  activeSetup : m.activeSetup = n.activeSetup

structure Storable (qt : Qt) (m : WholeLayout) : Prop where
  screens : ∀ s ∈ m.screens, s.Writable
  options : m.options.SizeKept
  setup : (Setup.ofScreens qt m.screens).Storable
  setups : ∀ setup ∈ m.keptSetups, setup.Storable

instance (m : WholeLayout) : Decidable (m.Storable qt) :=
  decidable_of_iff ((∀ s ∈ m.screens, s.Writable) ∧ m.options.SizeKept ∧ (Setup.ofScreens qt m.screens).Storable ∧
      ∀ setup ∈ m.keptSetups, setup.Storable)
    ⟨fun h => ⟨h.1, h.2.1, h.2.2.1, h.2.2.2⟩, fun h => ⟨h.screens, h.options, h.setup, h.setups⟩⟩

lemma opened_screens (h : n.Sound qt) : (opened qt n.settings).screens =
    (n.screens.map ScreenConfig.reloaded).filter fun s => decide (s.name ≠ []) := by
  have hloaded : loadScreens n.settings = n.screens.map ScreenConfig.reloaded := by
    have hfield : n.settings.field "screens" = .array (n.screens.map ScreenConfig.saveScreen) := rfl
    have hversion : (n.settings.field "layoutVersion").toInt 1 = kLayoutVersion := rfl
    rw [loadScreens, hversion, if_neg (lt_irrefl _), hfield, Value.toArray_array, List.map_map]
    exact List.map_congr_left fun s _ => s.loadScreen_saveScreen
  have hnames (s : ScreenConfig) : s.reloaded.name = s.name := LayoutModel.normaliseDisplays_name _
  have hdistinct : LayoutModel.Distinct qt (n.screens.map ScreenConfig.reloaded) := h.distinct.map hnames
  have hopened : (opened qt n.settings).screens = ((loadScreens n.settings).foldl (LayoutModel.appendNew qt)
      { (new (some LayoutModel.emptyStore)).toLayoutModel with screens := [] }).screens := rfl
  rw [hopened, hloaded, LayoutModel.foldl_appendNew]
  · rfl
  · exact hdistinct

lemma opened_setups (n : WholeLayout) : (opened qt n.settings).setups =
    ((n.setups.map (Setup.reloaded qt)).filter fun setup => decide (setup ≠ [])).take kMaxSetups := by
  have hread : readSetups n.setupsJson = n.setups.map fun setup => setup.map fun e => e.2.kept := by
    rw [readSetups, setupsJson, Value.toArray_array, List.map_map]
    apply List.map_congr_left
    intro setup _
    rw [Function.comp_apply, Value.toArray_array, List.map_map]
    exact List.map_congr_left fun e _ => e.2.ofSetupJson_setupJson
  have hopened : (opened qt n.settings).setups = LayoutModel.loadSetups qt (readSetups n.setupsJson) := rfl
  rw [hopened, hread, LayoutModel.loadSetups, List.map_map]
  rfl

lemma opened_hotkeys (n : WholeLayout) : (opened qt n.settings).hotkeys = n.hotkeys.map Hotkey.loaded := by
  have hopened : (opened qt n.settings).hotkeys = (n.hotkeys.map Hotkey.saveSettings).map Hotkey.ofSettings := rfl
  rw [hopened, List.map_map]
  exact List.map_congr_left fun h _ => h.ofSettings_saveSettings

lemma opened_options (n : WholeLayout) : (opened qt n.settings).options = n.options.reloaded ∧
    (opened qt n.settings).ignoreAutoConfigClient = n.ignoreAutoConfigClient ∧
    (opened qt n.settings).enableDragAndDrop = n.enableDragAndDrop :=
  ⟨n.options.ofSettings_settingsFields, rfl, rfl⟩

lemma screens_same_iff (h : n.Sound qt) : (opened qt n.settings).screens = n.screens ↔
    ∀ s ∈ n.screens, s.Writable := by
  have hname (s : ScreenConfig) : s.reloaded.name = s.name := LayoutModel.normaliseDisplays_name _
  rw [opened_screens h, filter_map_eq_iff fun s _ => by rw [hname]]
  apply forall₂_congr
  intro s hs
  rw [decide_eq_true_eq, ScreenConfig.reloaded_eq_iff (h.screens s hs)]

lemma setups_same_iff (h : n.Sound qt) : List.Forall₂ Setup.Same (opened qt n.settings).setups n.setups ↔
    ∀ setup ∈ n.setups, setup.Storable := by
  rw [opened_setups]
  have hsame (setup : Setup) (hsetup : setup ∈ n.setups) :=
    Setup.same_reloaded_iff (h.keyed setup hsetup) fun e he => h.setups setup hsetup e he
  constructor
  · intro hall
    have hkept : ∀ setup ∈ n.setups.map (Setup.reloaded qt), decide (setup ≠ []) = true := by
      have hlength := hall.length_eq
      have hfilter := List.length_filter_le (fun setup => decide (setup ≠ [])) (n.setups.map (Setup.reloaded qt))
      rw [← List.length_filter_eq_length_iff]
      rw [List.length_take] at hlength
      rw [List.length_map] at hfilter ⊢
      exact le_antisymm hfilter (hlength ▸ min_le_right _ _)
    have hfew : (n.setups.map (Setup.reloaded qt)).length ≤ kMaxSetups := (List.length_map ..).trans_le h.few
    rw [List.filter_eq_self.mpr hkept, List.take_of_length_le hfew, List.forall₂_map_left_iff, List.forall₂_same] at hall
    intro setup hsetup
    refine ⟨?_, (hsame setup hsetup).mp (hall setup hsetup)⟩
    rintro rfl
    exact of_decide_eq_true (hkept _ (List.mem_map_of_mem hsetup)) rfl
  · intro hall
    have hkept : ((n.setups.map (Setup.reloaded qt)).filter fun setup => decide (setup ≠ [])) = n.setups.map (Setup.reloaded qt) := by
      apply List.filter_eq_self.mpr
      intro setup hsetup
      obtain ⟨old, hold, rfl⟩ := List.mem_map.mp hsetup
      obtain ⟨e, he⟩ := List.exists_mem_of_ne_nil _ (hall old hold).ne_nil
      have hmem := (Setup.mem_reloaded (h.keyed old hold)).mpr ⟨e, he, ((hall old hold).screens e he).1, rfl⟩
      exact decide_eq_true (List.ne_nil_of_mem hmem)
    rw [hkept, List.take_of_length_le (by rw [List.length_map]; exact h.few), List.forall₂_map_left_iff, List.forall₂_same]
    exact fun setup hsetup => (hsame setup hsetup).mpr (hall setup hsetup).screens

lemma activeSetup_same {i : ℕ} (hactive : n.activeSetup = some i) (hi : i < (opened qt n.settings).setups.length) :
    (opened qt n.settings).activeSetup = n.activeSetup := by
  have hopened : (opened qt n.settings).activeSetup =
      if (n.activeSetup.elim (-1) (↑) : ℤ) < 0 ∨ (opened qt n.settings).setups.length ≤ (n.activeSetup.elim (-1) (↑) : ℤ) then none
      else some (n.activeSetup.elim (-1) (↑) : ℤ).toNat := rfl
  have hread : ¬((n.activeSetup.elim (-1) (↑) : ℤ) < 0 ∨
      (opened qt n.settings).setups.length ≤ (n.activeSetup.elim (-1) (↑) : ℤ)) := by
    rw [hactive, Option.elim_some]
    omega
  rw [hopened, if_neg hread, hactive]
  rfl

lemma same_iff (h : n.Sound qt) {i : ℕ} (hactive : n.activeSetup = some i) (hi : i < n.setups.length) :
    (opened qt n.settings).Same n ↔ (∀ s ∈ n.screens, s.Writable) ∧
      n.options.SizeKept ∧ ∀ setup ∈ n.setups, setup.Storable := by
  rw [← screens_same_iff h, ← LayoutOptions.reloaded_eq_iff h.dimming, ← setups_same_iff h]
  obtain ⟨hoptions, hignore, hdrag⟩ := @opened_options qt n
  constructor
  · intro hsame
    exact ⟨hsame.screens, hoptions.symm.trans hsame.options.1, hsame.setups⟩
  · rintro ⟨hscreens, hsize, hsetups⟩
    refine ⟨hscreens, ⟨hoptions.trans hsize, hignore, hdrag⟩, ?_, hsetups, ?_⟩
    · rw [opened_hotkeys, List.map_map]
      exact List.map_congr_left fun h _ => h.loaded_loaded
    · exact activeSetup_same hactive (hsetups.length_eq ▸ hi)

lemma same_save_iff (h : m.Sound qt) (hstore : m.store.isSome = true) :
    (opened qt (m.save qt).settings).Same (m.save qt) ↔ m.Storable qt := by
  obtain ⟨hsetups, hactive⟩ := @LayoutModel.save_setups qt m.toLayoutModel hstore
  obtain ⟨i, hi, hlt⟩ := @LayoutModel.activeSetup_recordSetup qt m.toLayoutModel
  have hscreens : (m.save qt).screens = m.screens := LayoutModel.save_screens m.toLayoutModel
  have hoptions : (m.save qt).options = m.options := LayoutModel.options_save m.toLayoutModel
  have hrecorded : (m.save qt).setups = (m.toLayoutModel.recordSetup qt).setups := hsetups
  have hsame := same_iff (n := m.save qt) h.save (hactive.trans hi) (hrecorded ▸ hlt)
  rw [hsame, hscreens, hoptions, hrecorded]
  constructor
  · rintro ⟨hfit, hsize, hall⟩
    exact ⟨hfit, hsize, hall _ (LayoutModel.mem_recordSetup.mpr (.inl rfl)),
      fun setup hsetup => hall setup (LayoutModel.mem_recordSetup.mpr (.inr hsetup))⟩
  · intro hstorable
    refine ⟨hstorable.screens, hstorable.options, fun setup hsetup => ?_⟩
    rcases LayoutModel.mem_recordSetup.mp hsetup with rfl | hkept
    · exact hstorable.setup
    · exact hstorable.setups setup hkept

end WholeLayout

end InputLeap.Gui
