import InputLeap.Gui.SentBack
import InputLeap.Gui.SoundLayout

/-! A layout in the window, from its start on: what a client sends back as it was makes the same configuration, and what is
saved is there again, as long as the forms in which the layout is sent and saved have room for it. -/

namespace InputLeap.Gui

open InputLeap.Lib

inductive OptionOp
  | hasHeartbeat (on : Bool)
  | heartbeat (ms : ℤ)
  | relativeMouseMoves (on : Bool)
  | screenSaverSync (on : Bool)
  | win32KeepForeground (on : Bool)
  | hasSwitchDelay (on : Bool)
  | switchDelay (ms : ℤ)
  | hasSwitchDoubleTap (on : Bool)
  | switchDoubleTap (ms : ℤ)
  | switchCornerSize (px : ℤ)
  | switchCorner (corner : ℤ) (on : Bool)
  | clipboardSharing (on : Bool)
  | clipboardSharingSizeMb (mb : ℤ)
  | dimmingEnabled (on : Bool)
  | dimmingPercentage (percent : ℤ)

def LayoutOptions.set (o : LayoutOptions) : OptionOp → LayoutOptions
  | .hasHeartbeat on => { o with hasHeartbeat := on }
  | .heartbeat ms => { o with heartbeat := max 1 ms }
  | .relativeMouseMoves on => { o with relativeMouseMoves := on }
  | .screenSaverSync on => { o with screenSaverSync := on }
  | .win32KeepForeground on => { o with win32KeepForeground := on }
  | .hasSwitchDelay on => { o with hasSwitchDelay := on }
  | .switchDelay ms => { o with switchDelay := max 0 ms }
  | .hasSwitchDoubleTap on => { o with hasSwitchDoubleTap := on }
  | .switchDoubleTap ms => { o with switchDoubleTap := max 0 ms }
  | .switchCornerSize px => { o with switchCornerSize := max 0 px }
  | .switchCorner corner on => { o with switchCorners := fun i => if (i.val : ℤ) = corner then on else o.switchCorners i }
  | .clipboardSharing on => { o with clipboardSharing := on }
  | .clipboardSharingSizeMb mb => { o with clipboardSharingSize := (max 1 mb).toNat * 1000 * 1000 }
  | .dimmingEnabled on => { o with dimmingEnabled := on }
  | .dimmingPercentage percent => { o with dimmingPercentage := qBound 0 percent 100 }

inductive WholeOp
  | layout (op : LayoutOp) (running : op ≠ .restart)
  | hotkey (op : HotkeyOp)
  | ensureServerPlaced
  | hotkeysEdited (hotkeys : List Hotkey)
  | option (op : OptionOp)
  | ignoreAutoConfigClient (on : Bool)
  | enableDragAndDrop (on : Bool)
  | load (settings : Value)
  | loadJson (json : Value)
  | replaceWith (json : Value)

def WholeOp.adopted : WholeOp → List ScreenConfig
  | .layout (.adoptScreens other) _ => other.screens
  | _ => []

namespace WholeLayout

section Runs

variable (qt : Qt) (lower : ℕ → ℕ) (m : WholeLayout)

def withLayout (l : LayoutModel) : WholeLayout := { m with toLayoutModel := l }

def setOption (options : LayoutOptions) : WholeLayout :=
  if m.options = options then m else save qt (m.withLayout { m.toLayoutModel with options := options })

def replaced (json : Value) : WholeLayout :=
  match m.replaceWith qt json with
  | .error _ => m
  | .ok m' => m'

def apply : WholeOp → WholeLayout
  | .layout op _ => m.withLayout (m.toLayoutModel.apply qt op)
  | .hotkey op => m.withLayout (m.toLayoutModel.edit qt lower op)
  | .ensureServerPlaced => m.withLayout (m.toLayoutModel.ensureServerPlaced qt)
  | .hotkeysEdited hotkeys => save qt (m.withLayout { m.toLayoutModel with hotkeys := hotkeys })
  | .option op => m.setOption qt (m.options.set op)
  | .ignoreAutoConfigClient on =>
    if m.ignoreAutoConfigClient = on then m else save qt { m with ignoreAutoConfigClient := on }
  | .enableDragAndDrop on => if m.enableDragAndDrop = on then m else save qt { m with enableDragAndDrop := on }
  | .load settings => if m.store.isSome then m.load qt settings else m
  | .loadJson json => m.loadJson qt json
  | .replaceWith json => m.replaced qt json

def next (op : WholeOp) : Option WholeLayout := some (m.apply qt lower op)

def Initial : Prop := m = new none ∨ m = new (some LayoutModel.emptyStore)

/-- Computers are taken over from a layout, where all scales are within their bounds. -/
def Kept (_ : WholeLayout) (op : WholeOp) : Prop := ∀ s ∈ op.adopted, s.Scaled

instance (op : WholeOp) : Decidable (m.Kept op) := inferInstanceAs (Decidable (∀ s ∈ op.adopted, s.Scaled))

end Runs

section Loaded

variable {qt : Qt} {lower : ℕ → ℕ} {m : WholeLayout}

lemma scaled_loadScreen (s : ScreenConfig) : (LayoutModel.loadScreen s).Scaled := by
  rw [LayoutModel.loadScreen]
  apply (LayoutModel.sameComputer_normaliseDisplays _).2
  exact qBound_bounds kMinScale_le _

lemma scaled_loadScreens (settings : Value) : ∀ s ∈ loadScreens settings, s.Scaled := by
  rw [loadScreens]
  split_ifs
  · intro s hs
    obtain ⟨⟨cell, i⟩, -, rfl⟩ := List.mem_map.mp hs
    exact scaled_loadScreen (ScreenConfig.readScreen cell)
  · intro s hs
    obtain ⟨cell, -, rfl⟩ := List.mem_map.mp hs
    exact scaled_loadScreen (ScreenConfig.readScreen cell)

lemma scaled_ofJson (json : Value) : (ScreenConfig.ofJson json).Scaled := by
  rw [ScreenConfig.ofJson]
  apply (LayoutModel.sameComputer_normaliseDisplays _).2
  exact qBound_bounds kMinScale_le _

lemma loadSetups_sound (stored : List (List ScreenConfig)) :
    (∀ setup ∈ LayoutModel.loadSetups qt stored, setup.Keyed qt ∧ ∀ e ∈ setup, e.2.Scaled) ∧
      (LayoutModel.loadSetups qt stored).length ≤ kMaxSetups := by
  refine ⟨fun setup hsetup => ?_, List.length_take_le _ _⟩
  obtain ⟨screens, -, rfl⟩ := List.mem_map.mp (List.mem_of_mem_filter (List.mem_of_mem_take hsetup))
  refine ⟨Setup.keyed_ofScreens qt _, LayoutModel.scaled_ofScreens fun s hs => ?_⟩
  obtain ⟨stored, -, rfl⟩ := List.mem_map.mp hs
  exact qBound_bounds kMinScale_le _

lemma foldl_appendNew_sound {screens : List ScreenConfig} (h : ∀ s ∈ screens, s.Scaled) (l : LayoutModel)
    (hdistinct : LayoutModel.Distinct qt l.screens) (hscaled : ∀ s ∈ l.screens, s.Scaled) :
    LayoutModel.Distinct qt (screens.foldl (LayoutModel.appendNew qt) l).screens ∧
      ∀ s ∈ (screens.foldl (LayoutModel.appendNew qt) l).screens, s.Scaled := by
  induction screens generalizing l with
  | nil => exact ⟨hdistinct, hscaled⟩
  | cons s screens ih =>
    have hrest : ∀ t ∈ screens, t.Scaled := fun t ht => h t (List.mem_cons_of_mem s ht)
    rw [List.foldl_cons, LayoutModel.appendNew]
    split_ifs with hskip
    · exact ih hrest l hdistinct hscaled
    · obtain ⟨-, hnew⟩ := not_or.mp hskip
      apply ih hrest
      · exact hdistinct.append fun _ => Bool.eq_false_iff.mpr hnew
      · exact LayoutModel.scaled_append hscaled (h s List.mem_cons_self)

lemma sound_load (m : WholeLayout) (settings : Value) : (m.load qt settings).Sound qt := by
  obtain ⟨hdistinct, hscaled⟩ := @foldl_appendNew_sound qt _ (scaled_loadScreens settings)
    { m.toLayoutModel with screens := [] } List.Pairwise.nil (by simp)
  obtain ⟨hsetups, hfew⟩ := @loadSetups_sound qt (readSetups (settings.field "setups"))
  exact ⟨hdistinct, hscaled, fun setup hsetup => (hsetups setup hsetup).1, fun setup hsetup => (hsetups setup hsetup).2, hfew,
    qBound_bounds (by decide) _⟩

lemma sound_loadJson (h : m.Sound qt) (json : Value) : (m.loadJson qt json).Sound qt := by
  have hscreens : ∀ s ∈ (json.field "screens").toArray.map ScreenConfig.ofJson, s.Scaled := by
    intro s hs
    obtain ⟨screen, -, rfl⟩ := List.mem_map.mp hs
    exact scaled_ofJson screen
  obtain ⟨hdistinct, hscaled⟩ := @foldl_appendNew_sound qt _ hscreens
    { m.toLayoutModel with screens := [] } List.Pairwise.nil (by simp)
  have hsetups : (m.loadJson qt json).setups = m.setups := by
    have hframe := congrArg LayoutModel.setups (@LayoutModel.foldl_appendNew_frame qt
      ((json.field "screens").toArray.map ScreenConfig.ofJson) { m.toLayoutModel with screens := [] })
    exact hframe
  exact ⟨hdistinct, hscaled, hsetups ▸ h.keyed, hsetups ▸ h.setups, hsetups ▸ h.few, qBound_bounds (by decide) _⟩

lemma sound_replaced (h : m.Sound qt) (json : Value) : (m.replaced qt json).Sound qt := by
  rw [replaced, replaceWith]
  cases refused json with
  | some why => exact h
  | none =>
    have hloaded := sound_loadJson h json
    apply LayoutModel.Sound.save
    exact hloaded.same rfl rfl rfl

end Loaded

section Steps

variable {qt : Qt} {lower : ℕ → ℕ} {m : WholeLayout}

lemma percentage_set (o : LayoutOptions) (op : OptionOp) (h : 0 ≤ o.dimmingPercentage ∧ o.dimmingPercentage ≤ 100) :
    0 ≤ (o.set op).dimmingPercentage ∧ (o.set op).dimmingPercentage ≤ 100 := by
  cases op with
  | dimmingPercentage percent => exact qBound_bounds (by decide) percent
  | _ => exact h

lemma sound_setOption (h : m.Sound qt) (op : OptionOp) : (m.setOption qt (m.options.set op)).Sound qt := by
  rw [setOption]
  split_ifs
  · exact h
  · apply LayoutModel.Sound.save
    exact ⟨h.distinct, h.screens, h.keyed, h.setups, h.few, percentage_set m.options op h.dimming⟩

lemma sound_layout (h : m.Sound qt) {op : LayoutOp} (hrunning : op ≠ .restart)
    (hkept : ∀ s ∈ (WholeOp.layout op hrunning).adopted, s.Scaled) : (m.toLayoutModel.apply qt op).Sound qt := by
  cases op with
  | addScreen name x y => exact h.addScreen name x y
  | addScreenAnywhere name => exact h.addScreenAnywhere name
  | placeNextTo name anchor side => exact h.placeNextTo name anchor side
  | adoptScreens other => exact h.adoptScreens hkept
  | moveTo index x y => exact h.moveTo index x y
  | setScreenSettings index settings => exact h.setScreenSettings index settings
  | addDisplay index => exact h.addDisplay index
  | removeDisplay index display => exact h.removeDisplay index display
  | setScale index percent => exact h.setScale index percent
  | useMeasuredScale index => exact h.useMeasuredScale index
  | reportDisplays name displays => exact h.reportDisplays name displays
  | useReportedDisplays index => exact h.useReportedDisplays index
  | renameScreen index name => exact h.renameScreen index name
  | removeScreen index => exact h.removeScreen index
  | setServerName name => exact h.setServerName name
  | restart => exact absurd rfl hrunning

lemma sound_apply (h : m.Sound qt) {op : WholeOp} (hkept : m.Kept op) : (m.apply qt lower op).Sound qt := by
  cases op with
  | layout op hrunning => exact sound_layout h hrunning hkept
  | hotkey op => exact h.edit lower op
  | ensureServerPlaced => exact h.ensureServerPlaced
  | hotkeysEdited hotkeys => exact h.withHotkeys hotkeys
  | option op => exact sound_setOption h op
  | ignoreAutoConfigClient on =>
    rw [apply]
    split_ifs
    · exact h
    · exact LayoutModel.Sound.save h
  | enableDragAndDrop on =>
    rw [apply]
    split_ifs
    · exact h
    · exact LayoutModel.Sound.save h
  | load settings =>
    rw [apply]
    split_ifs
    · exact sound_load m settings
    · exact h
  | loadJson json => exact sound_loadJson h json
  | replaceWith json => exact sound_replaced h json

lemma sound_initial (h : m.Initial) : m.Sound qt := by
  have hempty (store : Option LayoutStore) : (LayoutModel.empty store).Sound qt :=
    ⟨List.Pairwise.nil, by simp [LayoutModel.empty], by simp [LayoutModel.empty], by simp [LayoutModel.empty],
      Nat.zero_le _, (by decide : (0 : ℤ) ≤ 30 ∧ (30 : ℤ) ≤ 100)⟩
  rcases h with rfl | rfl
  · exact hempty none
  · exact hempty _

lemma sound_of_reachable (hrun : Reachable Initial (next qt lower) Kept m) : m.Sound qt :=
  hrun.invariant (fun _ h => sound_initial h) fun m op n h hkept hnext => by
    rw [← Option.some.inj hnext]
    exact sound_apply h hkept

lemma configText_replaced {json : Value} (h : m.Sound qt) (hsend : m.Sendable) (hjson : m.toJson lower = some json) :
    (m.replaced qt json).configText lower = m.configText lower := by
  rw [replaced]
  split
  · rfl
  · rename_i m' hreplaced
    exact configText_replaceWith hjson hreplaced hsend h.distinct h.screens h.dimming

end Steps

theorem configText_sent_back (qt : Qt) (lower : ℕ → ℕ) (m : WholeLayout) (json : Value)
    (hrun : Reachable Initial (next qt lower) Kept m) (hsend : m.Sendable) (hjson : m.toJson lower = some json) :
    (m.replaced qt json).configText lower = m.configText lower :=
  configText_replaced (sound_of_reachable hrun) hsend hjson

def shared : List WholeOp :=
  [.layout (.addScreen ['a'] 0 0) (by simp), .layout (.addScreen ['b'] 1920 0) (by simp),
    .hotkey (.addHotkey LayoutModel.recordedA), .hotkey (.addAction 0 (LayoutModel.switchTo ['b']))]

theorem configText_sent_back_shared : ∃ (m : WholeLayout) (json : Value), m.hotkeys.length = 1 ∧ refused json = none ∧
    m.toJson id = some json ∧ (m.replaced LayoutModel.asciiQt json).configText id = m.configText id := by
  obtain ⟨m, hrun, hlength, hsend, haccepted⟩ : ∃ m, Reachable Initial (next LayoutModel.asciiQt id) Kept m ∧
      m.hotkeys.length = 1 ∧ m.Sendable ∧ (m.toJson id).any fun json => (refused json).isNone :=
    Reachable.exists_of_run (s := new (some LayoutModel.emptyStore)) (.inr rfl) shared (by decide)
  cases hjson : m.toJson id with
  | none => simp [hjson] at haccepted
  | some json =>
    rw [hjson] at haccepted
    exact ⟨m, json, hlength, Option.isNone_iff_eq_none.mp haccepted, hjson,
      configText_sent_back LayoutModel.asciiQt id m json hrun hsend hjson⟩

/-- A store with a size of one and a half megabytes, of which the document says one. -/
theorem configText_sent_back_lost : ¬∀ (m : WholeLayout) (json : Value),
    Reachable Initial (next LayoutModel.asciiQt id) Kept m → m.store.isSome = true → m.toJson id = some json →
      refused json = none → (m.replaced LayoutModel.asciiQt json).configText id = m.configText id := by
  intro h
  obtain ⟨m, hrun, hstore, hlost⟩ : ∃ m, Reachable Initial (next LayoutModel.asciiQt id) Kept m ∧ m.store.isSome = true ∧
      (m.toJson id).any (fun json => (refused json).isNone &&
        decide ((m.replaced LayoutModel.asciiQt json).configText id ≠ m.configText id)) = true :=
    Reachable.exists_of_run (s := new (some LayoutModel.emptyStore)) (.inr rfl)
      [.load (.object [("clipboardSharingSize", .int 1500000)])] (by decide +kernel)
  cases hjson : m.toJson id with
  | none => simp [hjson] at hlost
  | some json =>
    simp only [hjson, Option.any_some, Bool.and_eq_true, Option.isNone_iff_eq_none, decide_eq_true_eq] at hlost
    exact hlost.2 (h m json hrun hstore hjson hlost.1)

theorem same_reopened_iff (qt : Qt) (lower : ℕ → ℕ) (m : WholeLayout) (hrun : Reachable Initial (next qt lower) Kept m)
    (hstore : m.store.isSome = true) : (opened qt (m.save qt).settings).Same (m.save qt) ↔ m.Storable qt :=
  same_save_iff (sound_of_reachable hrun) hstore

theorem same_reopened_iff_shared : ∃ m : WholeLayout, m.screens.length = 2 ∧ m.hotkeys.length = 1 ∧
    (opened LayoutModel.asciiQt (m.save LayoutModel.asciiQt).settings).Same (m.save LayoutModel.asciiQt) := by
  obtain ⟨m, hrun, hstore, hscreens, hhotkeys, hstorable⟩ : ∃ m, Reachable Initial (next LayoutModel.asciiQt id) Kept m ∧
      m.store.isSome = true ∧ m.screens.length = 2 ∧ m.hotkeys.length = 1 ∧ m.Storable LayoutModel.asciiQt :=
    Reachable.exists_of_run (s := new (some LayoutModel.emptyStore)) (.inr rfl) shared (by decide)
  exact ⟨m, hscreens, hhotkeys, (same_reopened_iff LayoutModel.asciiQt id m hrun hstore).mpr hstorable⟩

/-- Three gigabytes are more than an `int` holds. -/
theorem same_reopened_lost : ¬∀ m : WholeLayout, Reachable Initial (next LayoutModel.asciiQt id) Kept m →
    m.store.isSome = true → (opened LayoutModel.asciiQt (m.save LayoutModel.asciiQt).settings).Same (m.save LayoutModel.asciiQt) := by
  intro h
  obtain ⟨m, hrun, hstore, hlost⟩ : ∃ m, Reachable Initial (next LayoutModel.asciiQt id) Kept m ∧ m.store.isSome = true ∧
      (opened LayoutModel.asciiQt (m.save LayoutModel.asciiQt).settings).options.clipboardSharingSize ≠
        (m.save LayoutModel.asciiQt).options.clipboardSharingSize :=
    Reachable.exists_of_run (s := new (some LayoutModel.emptyStore)) (.inr rfl)
      (shared ++ [.option (.clipboardSharingSizeMb 3000)]) (by decide)
  exact hlost (congrArg LayoutOptions.clipboardSharingSize (h m hrun hstore).options.1)

end WholeLayout

end InputLeap.Gui
