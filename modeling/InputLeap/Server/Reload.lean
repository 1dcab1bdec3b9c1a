import InputLeap.Server.ClientNames

/-! What is left of a configuration when a server loads another one. -/

namespace InputLeap

open InputLeap.Lib

namespace Settings

def initial : Settings := ⟨0, 0, false, false, false, false, true, 2 ^ 31 - 1⟩

def amount (value : OptionValue) : ℕ := value.toInt.toNat

def flag (value : OptionValue) : Bool := decide (value ≠ 0)

def withOption (o : Settings) (option : OptionID) (value : OptionValue) : Settings where
  switchWaitDelay := if option = kOptionScreenSwitchDelay then amount value else o.switchWaitDelay
  switchTwoTapDelay := if option = kOptionScreenSwitchTwoTap then amount value else o.switchTwoTapDelay
  switchNeedsShift := if option = kOptionScreenSwitchNeedsShift then flag value else o.switchNeedsShift
  switchNeedsControl := if option = kOptionScreenSwitchNeedsControl then flag value else o.switchNeedsControl
  switchNeedsAlt := if option = kOptionScreenSwitchNeedsAlt then flag value else o.switchNeedsAlt
  relativeMoves := o.relativeMoves
  enableClipboard := if option = kOptionClipboardSharing then flag value else o.enableClipboard
  maximumClipboardSize := if option = kOptionClipboardSharingSize then amount value else o.maximumClipboardSize

def choose {α : Type} (options : ScreenOptions) (option : OptionID) (g : OptionValue → α) (old : α) : α :=
  ((options.find? option).map g).getD old

/-- What `processOptions` makes of the settings. -/
def configured (o : Settings) (options : ScreenOptions) : Settings where
  switchWaitDelay := choose options kOptionScreenSwitchDelay amount o.switchWaitDelay
  switchTwoTapDelay := choose options kOptionScreenSwitchTwoTap amount o.switchTwoTapDelay
  switchNeedsShift := choose options kOptionScreenSwitchNeedsShift flag false
  switchNeedsControl := choose options kOptionScreenSwitchNeedsControl flag false
  switchNeedsAlt := choose options kOptionScreenSwitchNeedsAlt flag false
  relativeMoves := choose options kOptionRelativeMouseMoves flag o.relativeMoves
  enableClipboard := choose options kOptionClipboardSharing flag o.enableClipboard
  maximumClipboardSize := choose options kOptionClipboardSharingSize amount o.maximumClipboardSize

lemma foldl_withOption_component {α : Type} {option : OptionID} (component : Settings → α) (g : OptionValue → α)
    (h : ∀ (o : Settings) other value,
      component (o.withOption other value) = if other = option then g value else component o)
    (options : ScreenOptions) (o : Settings) :
    component (options.entries.foldl (fun o e => o.withOption e.1 e.2) o) = choose options option g (component o) := by
  apply OrdMap.foldl_component component g
  · intro o e he
    exact (h o e.1 e.2).trans (if_pos he)
  · intro o e he
    exact (h o e.1 e.2).trans (if_neg he)

lemma foldl_withOption_relativeMoves (es : List (OptionID × OptionValue)) (o : Settings) :
    (es.foldl (fun o e => o.withOption e.1 e.2) o).relativeMoves = o.relativeMoves := by
  induction es generalizing o with
  | nil => rfl
  | cons e es ih => exact ih _

lemma foldl_withOption (options : ScreenOptions) (o : Settings) :
    options.entries.foldl (fun o e => o.withOption e.1 e.2) o =
      { o with
        switchWaitDelay := choose options kOptionScreenSwitchDelay amount o.switchWaitDelay
        switchTwoTapDelay := choose options kOptionScreenSwitchTwoTap amount o.switchTwoTapDelay
        switchNeedsShift := choose options kOptionScreenSwitchNeedsShift flag o.switchNeedsShift
        switchNeedsControl := choose options kOptionScreenSwitchNeedsControl flag o.switchNeedsControl
        switchNeedsAlt := choose options kOptionScreenSwitchNeedsAlt flag o.switchNeedsAlt
        enableClipboard := choose options kOptionClipboardSharing flag o.enableClipboard
        maximumClipboardSize := choose options kOptionClipboardSharingSize amount o.maximumClipboardSize } := by
  rw [← foldl_withOption_component switchWaitDelay amount (fun _ _ _ => rfl),
    ← foldl_withOption_component switchTwoTapDelay amount (fun _ _ _ => rfl),
    ← foldl_withOption_component switchNeedsShift flag (fun _ _ _ => rfl),
    ← foldl_withOption_component switchNeedsControl flag (fun _ _ _ => rfl),
    ← foldl_withOption_component switchNeedsAlt flag (fun _ _ _ => rfl),
    ← foldl_withOption_component enableClipboard flag (fun _ _ _ => rfl),
    ← foldl_withOption_component maximumClipboardSize amount (fun _ _ _ => rfl),
    ← foldl_withOption_relativeMoves options.entries o]

end Settings

namespace Config

/-- An option that `c` does not set either was not set before or had a value that changes nothing. -/
def Restored (old c : Config) (option : OptionID) (unchanged : OptionValue → Prop) : Prop :=
  c.globalOptions.find? option = none → ∀ value ∈ old.globalOptions.find? option, unchanged value

instance (old c : Config) (option : OptionID) (unchanged : OptionValue → Prop) [DecidablePred unchanged] :
    Decidable (Restored old c option unchanged) :=
  decidable_of_iff (c.globalOptions.find? option = none →
      (old.globalOptions.find? option).all (fun value => decide (unchanged value)) = true) (by
    simp [Restored, Option.all_eq_true])

/-- Loading `c` after `old` leaves no option of `old` in force. -/
structure Resets (old c : Config) : Prop where
  switchDelay : Restored old c kOptionScreenSwitchDelay fun value => value.toInt ≤ 0
  switchTwoTap : Restored old c kOptionScreenSwitchTwoTap fun value => value.toInt ≤ 0
  relativeMouseMoves : Restored old c kOptionRelativeMouseMoves fun value => value = 0
  clipboardSharing : Restored old c kOptionClipboardSharing fun value => value ≠ 0
  clipboardSharingSize : Restored old c kOptionClipboardSharingSize fun value => value = 0x7fffffff

lemma restored_iff {α : Type} {old c : Config} {option : OptionID} {unchanged : OptionValue → Prop}
    {g : OptionValue → α} {init : α} (h : ∀ value, g value = init ↔ unchanged value) :
    Settings.choose c.globalOptions option g (Settings.choose old.globalOptions option g init) =
      Settings.choose c.globalOptions option g init ↔ Restored old c option unchanged := by
  rw [Settings.choose, Settings.choose, Settings.choose, Restored]
  cases c.globalOptions.find? option with
  | none =>
    cases old.globalOptions.find? option with
    | none => simp
    | some value => simp [h]
  | some value => simp

end Config

namespace Settings

lemma amount_eq_zero (value : OptionValue) : amount value = 0 ↔ value.toInt ≤ 0 := Int.toNat_eq_zero

lemma flag_eq_false (value : OptionValue) : flag value = false ↔ value = 0 := by simp [flag]

lemma flag_eq_true (value : OptionValue) : flag value = true ↔ value ≠ 0 := by simp [flag]

lemma amount_eq_max (value : OptionValue) : amount value = 2 ^ 31 - 1 ↔ value = 0x7fffffff := by
  constructor
  · intro h
    apply BitVec.eq_of_toInt_eq
    rw [amount] at h
    have hmax : (0x7fffffff : OptionValue).toInt = 2 ^ 31 - 1 := by decide
    omega
  · rintro rfl
    decide

theorem configured_twice_iff (old c : Config) :
    (initial.configured old.globalOptions).configured c.globalOptions = initial.configured c.globalOptions ↔
      old.Resets c := by
  simp only [configured, initial, mk.injEq, true_and]
  rw [Config.restored_iff amount_eq_zero, Config.restored_iff amount_eq_zero, Config.restored_iff flag_eq_false,
    Config.restored_iff flag_eq_true, Config.restored_iff amount_eq_max]
  constructor
  · rintro ⟨hdelay, htap, hmoves, hsharing, hsize⟩
    exact ⟨hdelay, htap, hmoves, hsharing, hsize⟩
  · rintro ⟨hdelay, htap, hmoves, hsharing, hsize⟩
    exact ⟨hdelay, htap, hmoves, hsharing, hsize⟩

end Settings

namespace Registry

variable {r : Registry} {e : Event}

lemma closeClients_kept (r : Registry) (config : Config) :
    (r.closeClients config).config = r.config ∧ (r.closeClients config).names = r.names := by
  rw [closeClients]
  generalize (r.removed config).entries = es
  induction es generalizing r with
  | nil => exact ⟨rfl, rfl⟩
  | cons e es ih =>
    obtain ⟨hconfig, hnames⟩ := ih (r.closeClient e.1)
    have hclosed := r.removeClient_kept e.1
    exact ⟨hconfig.trans hclosed.1, hnames.trans hclosed.2⟩

lemma handle_primaryName (h : r.Allows e) : (r.handle e).names primaryClient = r.names primaryClient := by
  cases e with
  | adopt c name shape cursor =>
    have hname : Function.update r.names c name primaryClient = r.names primaryClient :=
      Function.update_of_ne h.1.symm _ _
    simp only [handle, addClient]
    split_ifs
    · rw [Option.getD_none, closeClient, (removeClient_kept _ c).2]
      exact hname
    · exact hname
    · rw [closeClient, (removeClient_kept _ c).2]
      exact hname
  | disconnected c => rw [handle, removeOldClient, (removeClient_kept r c).2]
  | reload config =>
    simp only [handle]
    split_ifs
    · rw [(closeClients_kept _ config).2]
    · rfl
  | _ => rfl

lemma handle_config (h : e.isReload = false) : (r.handle e).config = r.config := by
  cases e with
  | adopt c name shape cursor =>
    simp only [handle, addClient]
    split_ifs
    · exact (removeClient_kept _ c).1
    · rfl
    · exact (removeClient_kept _ c).1
  | disconnected c => exact (removeClient_kept r c).1
  | reload config => cases h
  | _ => rfl

end Registry

namespace Server

variable {env : Env} {s t : Server}

section Options

lemma processOption_settings (s : Server) (option : OptionID) (value : OptionValue) :
    (s.processOption option value).settings = s.settings.withOption option value := by
  rw [processOption]
  repeat' split
  iterate 7
    · subst option
      rfl
  · simp only [Settings.withOption, *, if_false]

lemma stopRelativeMoves_settings (s : Server) : s.stopRelativeMoves.settings = s.settings := by
  rw [stopRelativeMoves]
  split_ifs <;> rfl

theorem processOptions_settings (s : Server) :
    s.processOptions.settings = s.settings.configured s.registry.config.globalOptions := by
  have hfold (t : Server) (es : List (OptionID × OptionValue)) :
      (es.foldl (fun s e => s.processOption e.1 e.2) t).settings =
        es.foldl (fun o e => o.withOption e.1 e.2) t.settings := by
    rw [List.foldl_hom Server.settings]
    intro t e
    exact (processOption_settings t e.1 e.2).symm
  have hoptions := Settings.foldl_withOption s.registry.config.globalOptions
    { s.settings with switchNeedsShift := false, switchNeedsControl := false, switchNeedsAlt := false }
  simp only [processOptions]
  split_ifs
  · simp only [modifySettings, stopRelativeMoves_settings, hfold, hoptions]
    rfl
  · simp only [modifySettings, hfold, hoptions]
    rfl

end Options

lemma setConfig_settings {config : Config} (h : config.isScreen (s.registry.names primaryClient) = true)
    (hconfig : s.registry.config = config) :
    (s.setConfig env config).settings = s.settings.configured config.globalOptions := by
  have hclosed : (s.closeClients env config).registry.config = config := by
    rw [closeClients_registry, (Registry.closeClients_kept _ config).1, hconfig]
  rw [setConfig, if_pos h, processOptions_settings, (closeClients_kept env s config).2.2, hclosed]

lemma new_settings {config : Config} {name : Name} (h : config.isScreen name = true) (env : Env) (shape : DisplayRect)
    (cursor pos : Position) (enableDragDrop : Bool) :
    (new env config name shape cursor pos enableDragDrop).settings =
      Settings.initial.configured config.globalOptions := by
  have hset : ∀ s : Server, s.registry.config = config → s.registry.names primaryClient = name →
      s.settings = .initial → (s.setConfig env config).settings = Settings.initial.configured config.globalOptions := by
    rintro s hconfig rfl hsettings
    rw [setConfig_settings h hconfig, hsettings]
  rw [new]
  split_ifs
  · exact hset _ rfl rfl rfl
  · exact hset _ rfl rfl rfl

lemma adoptClient_settings (env : Env) (s : Server) (c : ClientId) : (s.adoptClient env c).settings = s.settings := by
  rcases adoptClient_cases env s c with ⟨hclose, -⟩ | ⟨r, -, -, hquiet⟩
  · rw [hclose]
    exact (forceLeaveClient_forcedOff env _ c).settings
  · exact hquiet.settings

lemma removeActiveClient_settings (env : Env) (s : Server) (c : ClientId) :
    (s.removeActiveClient env c).settings = s.settings := by
  rw [removeActiveClient]
  split_ifs
  · exact (forceLeaveClient_forcedOff env _ c).settings
  · rfl

theorem handle_settings {e : Event} (he : e.isReload = false) (h : s.handle env e = some t) :
    t.settings = s.settings := by
  by_cases hmoves : e.movesCursor
  · exact (handle_cursor hmoves h).settings
  · cases e with
    | adopt c name shape cursor => exact Option.some.inj h ▸ adoptClient_settings env _ c
    | disconnected c => exact Option.some.inj h ▸ removeActiveClient_settings env s c
    | closeTimeout c => exact Option.some.inj h ▸ rfl
    | recvClipboard c id data => exact Option.some.inj h ▸ rfl
    | clipboardGrabbed c id seqNum =>
      obtain ⟨proxies, clipboards, heq⟩ := handleClipboardGrabbed_eq s c id seqNum
      rw [← Option.some.inj h, heq]
    | clipboardChanged c id seqNum =>
      exact Option.some.inj h ▸ (handleClipboardChanged_sameScreens env s c id seqNum).settings
    | reload config => cases he
    | _ => exact absurd rfl hmoves

lemma next_primaryName {e : Env × Event} (h : s.next e = some t) :
    t.registry.names primaryClient = s.registry.names primaryClient := by
  obtain ⟨henabled, hhandle⟩ := next_handle h
  rw [handle_registry hhandle, Registry.handle_primaryName (allows_of_enabled henabled)]

lemma reloadConfig_primaryName (env : Env) (s : Server) (config : Config) :
    (s.reloadConfig env config).registry.names primaryClient = s.registry.names primaryClient := by
  rw [reloadConfig_registry, Registry.handle_primaryName (e := .reload config) trivial]

/-- Nothing is left of the configuration that a server was started with exactly if each option that
keeps its value is set again, was not set or had the value that it has at the start. -/
theorem reload_settings_eq_restart_iff {env₁ env₂ env₃ : Env} {old config : Config} {name : Name}
    {shape shape' : DisplayRect} {cursor cursor' pos pos' : Position} {enableDragDrop : Bool}
    (hold : old.isScreen name = true) (hconfig : config.isScreen name = true)
    (hs : Reachable (fun s => s = new env₁ old name shape cursor pos enableDragDrop) next
      (fun _ e => e.2.isReload = false) s) :
    (s.reloadConfig env₂ config).settings = (new env₃ config name shape' cursor' pos' enableDragDrop).settings ↔
      old.Resets config := by
  have hkept : s.registry.names primaryClient = name ∧ s.settings = Settings.initial.configured old.globalOptions := by
    apply hs.invariant (I := fun s => s.registry.names primaryClient = name ∧
      s.settings = Settings.initial.configured old.globalOptions)
    · rintro _ rfl
      have hregistry := (new_reconfigured env₁ hold shape cursor pos enableDragDrop).registry
      exact ⟨by rw [hregistry]; rfl, new_settings hold ..⟩
    · rintro s e t ⟨hname, hsettings⟩ he hnext
      obtain ⟨-, hhandle⟩ := next_handle hnext
      exact ⟨(next_primaryName hnext).trans hname, (handle_settings he hhandle).trans hsettings⟩
  obtain ⟨hname, hsettings⟩ := hkept
  have hscreen : config.isScreen (s.registry.names primaryClient) = true := by rw [hname, hconfig]
  have hloaded : (s.reloadConfig env₂ config).settings = s.settings.configured config.globalOptions :=
    setConfig_settings (s := { s with registry := { s.registry with config := config } }) hscreen rfl
  rw [hloaded, new_settings hconfig, hsettings]
  exact Settings.configured_twice_iff old config

def switchDelayConfig (delay : OptionValue) : Config :=
  let c := Config.ofScreens [['p']]
  (c.addOption [] kOptionScreenSwitchDelay delay).getD c

theorem reload_settings_switchDelay :
    ((plain (switchDelayConfig 250)).reloadConfig .plain (switchDelayConfig 100)).settings =
      (plain (switchDelayConfig 100)).settings := by
  have hresets : (switchDelayConfig 250).Resets (switchDelayConfig 100) :=
    ⟨by decide, by decide, by decide, by decide, by decide⟩
  have hs : Reachable (fun s => s = plain (switchDelayConfig 250)) next (fun _ e => e.2.isReload = false)
    (plain (switchDelayConfig 250)) := .start rfl
  exact (reload_settings_eq_restart_iff (by decide) (by decide) hs).mpr hresets

theorem reload_settings_ne_restart : ∃ old config, old.isScreen ['p'] = true ∧ config.isScreen ['p'] = true ∧
    ((plain old).reloadConfig .plain config).settings ≠ (plain config).settings :=
  ⟨switchDelayConfig 250, .ofScreens [['p']], by decide, by decide, by decide⟩

end Server

structure Config.SameAnswers (c d : Config) : Prop where
  isScreen : ∀ name, c.isScreen name = d.isScreen name
  getCanonicalName : ∀ name, c.getCanonicalName name = d.getCanonicalName name
  getNeighbor : ∀ rnd name side position, c.getNeighbor rnd name side position = d.getNeighbor rnd name side position
  getOptions : ∀ name, c.getOptions name = d.getOptions name
  displaysOf : ∀ name, c.displaysOf name = d.displaysOf name

lemma Config.SameAnswers.refl (c : Config) : c.SameAnswers c :=
  ⟨fun _ => rfl, fun _ => rfl, fun _ _ _ _ => rfl, fun _ => rfl, fun _ => rfl⟩

namespace Server

variable {env : Env} {s : Server}

def hasOwnScreen (s : Server) : Bool := s.registry.config.isScreen (s.registry.names primaryClient)

lemma reloadConfig_config (env : Env) (s : Server) (config : Config) :
    (s.reloadConfig env config).registry.config = config := by
  rw [reloadConfig_registry, Registry.handle]
  split_ifs
  · exact (Registry.closeClients_kept _ config).1
  · rfl

def Accepts (s : Server) : Event → Prop
  | .reload config => config.isScreen (s.registry.names primaryClient) = true
  | _ => True

lemma next_hasOwnScreen {e : Env × Event} {t : Server} (h : s.hasOwnScreen = true) (haccepts : s.Accepts e.2)
    (hnext : s.next e = some t) : t.hasOwnScreen = true := by
  obtain ⟨henabled, hhandle⟩ := next_handle hnext
  rw [hasOwnScreen, next_primaryName hnext]
  cases hreload : e.2.isReload with
  | false => rwa [handle_registry hhandle, Registry.handle_config hreload]
  | true =>
    obtain ⟨env, e⟩ := e
    cases e with
    | reload config => rwa [← Option.some.inj hhandle, reloadConfig_config]
    | _ => cases hreload

theorem hasOwnScreen_of_reachable (h : Reachable Initial next (fun s e => s.Accepts e.2) s) :
    s.hasOwnScreen = true := by
  apply h.invariant (I := fun s => s.hasOwnScreen = true)
  · rintro _ ⟨env, config, name, shape, cursor, pos, enableDragDrop, hscreen, rfl⟩
    rw [hasOwnScreen, (new_reconfigured env hscreen shape cursor pos enableDragDrop).registry]
    exact hscreen
  · intro s e t hs haccepts hnext
    exact next_hasOwnScreen hs haccepts hnext

/-- A configuration that is refused has already taken the place of the one before, so that the server
answers as before only if it had lost its own screen by then to one that answers alike. -/
theorem refused_reload_sameAnswers_iff {config : Config}
    (hrefused : config.isScreen (s.registry.names primaryClient) = false) :
    ((s.reloadConfig env config).registry.config.SameAnswers s.registry.config ↔
      s.hasOwnScreen = false ∧ config.SameAnswers s.registry.config) ∧
    (Reachable Initial next (fun s e => s.Accepts e.2) s →
      ¬ (s.reloadConfig env config).registry.config.SameAnswers s.registry.config) := by
  have hlost (h : config.SameAnswers s.registry.config) : s.hasOwnScreen = false := by
    rw [hasOwnScreen, ← h.isScreen, hrefused]
  rw [reloadConfig_config]
  constructor
  · constructor
    · intro h
      exact ⟨hlost h, h⟩
    · rintro ⟨-, h⟩
      exact h
  · intro hs h
    exact absurd (hasOwnScreen_of_reachable hs) (by simp [hlost h])

def lostScreen : Server := (plain (.ofScreens [['p']])).reloadConfig .plain (.ofScreens [['a']])

theorem refused_twice_sameAnswers :
    (lostScreen.reloadConfig .plain (.ofScreens [['a']])).registry.config.SameAnswers lostScreen.registry.config := by
  have hconfig : lostScreen.registry.config = .ofScreens [['a']] := reloadConfig_config _ _ _
  have hname : lostScreen.registry.names primaryClient = ['p'] := by decide
  have hrefused : (Config.ofScreens [['a']]).isScreen (lostScreen.registry.names primaryClient) = false := by
    rw [hname]
    decide
  apply (refused_reload_sameAnswers_iff hrefused).1.mpr
  rw [hasOwnScreen, hconfig]
  exact ⟨hrefused, .refl _⟩

theorem refused_reload_other_answers : ∃ s config, Initial s ∧
    config.isScreen (s.registry.names primaryClient) = false ∧
    ¬ (s.reloadConfig .plain config).registry.config.SameAnswers s.registry.config := by
  refine ⟨plain (.ofScreens [['p']]), .ofScreens [['a']], plain_initial _ (by decide), by decide, ?_⟩
  intro h
  exact absurd (h.isScreen ['p']) (by decide)

end Server

end InputLeap
