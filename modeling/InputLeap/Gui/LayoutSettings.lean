import InputLeap.Gui.LayoutJson

/-! The layout in the settings, from which a new window reads it. A setup is kept in a form of its own, which has room
for less. -/

namespace InputLeap.Gui

open InputLeap.Lib

section Settings

def writeArray (name : String) (values : List Value) : String × Value :=
  (name ++ "Array", .array (values.map fun value => .object [(name, value)]))

def readArray (settings : Value) (name : String) : Value :=
  .array ((settings.field (name ++ "Array")).toArray.map (·.field name))

def saveDisplay (d : DisplayConfig) : Value :=
  .object [("x", .int d.x), ("y", .int d.y), ("width", .int d.width), ("height", .int d.height),
    ("mmWidth", .int d.mmWidth), ("mmHeight", .int d.mmHeight)]

def readDisplay (settings : Value) : DisplayConfig where
  x := (settings.field "x").toInt 0
  y := (settings.field "y").toInt 0
  width := (settings.field "width").toInt kDefaultWidth
  height := (settings.field "height").toInt kDefaultHeight
  mmWidth := max 0 ((settings.field "mmWidth").toInt 0)
  mmHeight := max 0 ((settings.field "mmHeight").toInt 0)

def saveModifier (i : Fin 5) (k : Fin 6) : Value := .int (if k = i.castSucc then -1 else k.val)

def readModifier (i : Fin 5) (settings : Value) : Fin 6 :=
  let k := settings.toInt (-1)
  if k < 0 then i.castSucc else LayoutModel.ofInt6 k

end Settings

namespace ScreenConfig

def saveScreen (s : ScreenConfig) : Value :=
  .object
    [("name", .text s.name), ("x", .int s.x), ("y", .int s.y), ("displayArray", .array (s.displays.map saveDisplay)),
      ("displaysReported", .bool s.displaysReported), ("displaysTyped", .bool s.displaysTyped), ("scale", .int s.scale),
      ("scaleTyped", .bool s.scaleTyped), ("switchCornerSize", .int s.cornerSize),
      writeArray "alias" (s.aliases.map .text),
      writeArray "modifier" ((List.finRange 5).map fun i => saveModifier i (s.modifiers i)),
      writeArray "switchCorner" ((List.finRange 4).map fun i => .bool (s.corners i)),
      writeArray "fix" ((List.finRange 5).map fun i => .bool (s.fixes i))]

def readScreen (settings : Value) : ScreenConfig where
  name := (settings.field "name").toText
  x := (settings.field "x").toInt 0
  y := (settings.field "y").toInt 0
  displays := (settings.field "displayArray").toArray.map readDisplay
  displaysReported := (settings.field "displaysReported").toBool false
  displaysTyped := (settings.field "displaysTyped").toBool false
  scale := (settings.field "scale").toInt 1000
  scaleTyped := (settings.field "scaleTyped").toBool false
  aliases := ((readArray settings "alias").toArray.map Value.toText).filter fun a => decide (a ≠ [])
  modifiers i := ((readArray settings "modifier").toArray[i.val]?).elim i.castSucc (readModifier i)
  corners := (readArray settings "switchCorner").vector (Value.toBool · false) fun _ => false
  cornerSize := (settings.field "switchCornerSize").toInt 0
  fixes := (readArray settings "fix").vector (Value.toBool · false) fun _ => false

def loadScreen (settings : Value) : ScreenConfig := LayoutModel.loadScreen (readScreen settings)

def setupJson (s : ScreenConfig) : Value :=
  .object
    [("name", .text s.name), ("x", .int s.x), ("y", .int s.y), ("displays", .array (s.displays.map displayJson)),
      ("displaysReported", .bool s.displaysReported), ("displaysTyped", .bool s.displaysTyped), ("scale", .int s.scale),
      ("scaleTyped", .bool s.scaleTyped)]

def setupDisplay (json : Value) : DisplayConfig where
  x := (json.field "x").toInt 0
  y := (json.field "y").toInt 0
  width := (json.field "width").toInt 0
  height := (json.field "height").toInt 0
  mmWidth := (json.field "mmWidth").toInt 0
  mmHeight := (json.field "mmHeight").toInt 0

def ofSetupJson (json : Value) : ScreenConfig :=
  { ScreenConfig.new (json.field "name").toText with
    x := (json.field "x").toInt 0
    y := (json.field "y").toInt 0
    displays := (json.field "displays").toArray.map setupDisplay
    displaysReported := (json.field "displaysReported").toBool false
    displaysTyped := (json.field "displaysTyped").toBool false
    scale := (json.field "scale").toInt 1000
    scaleTyped := (json.field "scaleTyped").toBool false }

end ScreenConfig

namespace LayoutOptions

/-- The size of the clipboard is written as an `int`. -/
def settingsFields (o : LayoutOptions) : List (String × Value) :=
  [("hasHeartbeat", .bool o.hasHeartbeat), ("heartbeat", .int o.heartbeat),
    ("relativeMouseMoves", .bool o.relativeMouseMoves), ("screenSaverSync", .bool o.screenSaverSync),
    ("win32KeepForeground", .bool o.win32KeepForeground), ("hasSwitchDelay", .bool o.hasSwitchDelay),
    ("switchDelay", .int o.switchDelay), ("hasSwitchDoubleTap", .bool o.hasSwitchDoubleTap),
    ("switchDoubleTap", .int o.switchDoubleTap), ("switchCornerSize", .int o.switchCornerSize),
    ("clipboardSharing", .bool o.clipboardSharing),
    ("clipboardSharingSize", .int (BitVec.ofNat 32 o.clipboardSharingSize).toInt),
    ("screenDimmingEnabled", .bool o.dimmingEnabled), ("screenDimmingPercentage", .int o.dimmingPercentage),
    writeArray "switchCorner" ((List.finRange 4).map fun i => .bool (o.switchCorners i))]

def ofSettings (settings : Value) : LayoutOptions where
  hasHeartbeat := (settings.field "hasHeartbeat").toBool false
  heartbeat := (settings.field "heartbeat").toInt 5000
  relativeMouseMoves := (settings.field "relativeMouseMoves").toBool false
  screenSaverSync := (settings.field "screenSaverSync").toBool true
  win32KeepForeground := (settings.field "win32KeepForeground").toBool false
  hasSwitchDelay := (settings.field "hasSwitchDelay").toBool false
  switchDelay := (settings.field "switchDelay").toInt 250
  hasSwitchDoubleTap := (settings.field "hasSwitchDoubleTap").toBool false
  switchDoubleTap := (settings.field "switchDoubleTap").toInt 250
  switchCornerSize := (settings.field "switchCornerSize").toInt 0
  switchCorners := (readArray settings "switchCorner").vector (Value.toBool · false) fun _ => false
  clipboardSharing := (settings.field "clipboardSharing").toBool true
  clipboardSharingSize := (BitVec.ofInt 64 ((settings.field "clipboardSharingSize").toInt (100 * 1000 * 1000))).toNat
  dimmingEnabled := (settings.field "screenDimmingEnabled").toBool false
  dimmingPercentage := qBound 0 ((settings.field "screenDimmingPercentage").toInt 30) 100

end LayoutOptions

namespace KeySequence

def settingsFields (k : KeySequence) : List (String × Value) :=
  [("keys", .array (k.sequence.map fun key => .object [("key", .int key.toInt)]))]

def ofSettings (settings : Value) : KeySequence :=
  ⟨(settings.field "keys").toArray.map fun item => BitVec.ofInt 32 ((item.field "key").toInt 0), 0, true⟩

end KeySequence

namespace KeyAction

def saveSettings (a : KeyAction) : Value :=
  .object (a.keySequence.settingsFields ++
    [("type", .int a.type.toNat),
      ("typeScreenNames", .array (a.typeScreenNames.map fun name => .object [("typeScreenName", .text name)])),
      ("switchScreenName", .text a.switchScreenName), ("switchInDirection", .int a.switchDirection.val),
      ("lockCursorToScreen", .int a.lockCursorMode.val), ("activeOnRelease", .bool a.activeOnRelease),
      ("hasScreens", .bool a.haveScreens)])

/-- No number is written that is none of a type, a direction or a mode. -/
def ofSettings (settings : Value) : KeyAction where
  keySequence := .ofSettings settings
  type := .ofInt ((settings.field "type").toInt 0)
  typeScreenNames := (settings.field "typeScreenNames").toArray.map fun item => (item.field "typeScreenName").toText
  switchScreenName := (settings.field "switchScreenName").toText
  switchDirection := ofBounded 3 ((settings.field "switchInDirection").toInt 0)
  lockCursorMode := ofBounded 2 ((settings.field "lockCursorToScreen").toInt 0)
  activeOnRelease := (settings.field "activeOnRelease").toBool false
  haveScreens := (settings.field "hasScreens").toBool false

end KeyAction

namespace Hotkey

def saveSettings (h : Hotkey) : Value :=
  .object (h.keySequence.settingsFields ++ [("actions", .array (h.actions.map KeyAction.saveSettings))])

def ofSettings (settings : Value) : Hotkey :=
  ⟨.ofSettings settings, (settings.field "actions").toArray.map KeyAction.ofSettings⟩

end Hotkey

def kLayoutVersion : ℤ := 2

namespace WholeLayout

variable (qt : Qt) (m : WholeLayout)

def setupsJson : Value := .array (m.setups.map fun setup => .array (setup.map fun e => e.2.setupJson))

/-- What `save` leaves in the store, the setup of now among it. -/
def settings : Value :=
  .object (m.options.settingsFields ++
    [("layoutVersion", .int kLayoutVersion), ("ignoreAutoConfigClient", .bool m.ignoreAutoConfigClient),
      ("enableDragAndDrop", .bool m.enableDragAndDrop), ("screens", .array (m.screens.map ScreenConfig.saveScreen)),
      ("hotkeys", .array (m.hotkeys.map Hotkey.saveSettings)), ("setups", m.setupsJson),
      ("activeSetup", .int (m.activeSetup.elim (-1) (↑))) ])

def readSetups (json : Value) : List (List ScreenConfig) :=
  json.toArray.map fun setup => setup.toArray.map ScreenConfig.ofSetupJson

/-- The cells of a grid, each as big as a display of the default size. -/
def legacyScreens (settings : Value) : List ScreenConfig :=
  let columns := max 1 ((settings.field "numColumns").toInt 5)
  ((settings.field "screens").toArray.zipIdx).map fun (cell, i) =>
    { ScreenConfig.loadScreen cell with
      displays := [.default]
      x := i % columns * kDefaultWidth
      y := i / columns * kDefaultHeight }

def loadScreens (settings : Value) : List ScreenConfig :=
  if (settings.field "layoutVersion").toInt 1 < kLayoutVersion then legacyScreens settings
  else (settings.field "screens").toArray.map ScreenConfig.loadScreen

def load (settings : Value) : WholeLayout :=
  let setups := LayoutModel.loadSetups qt (readSetups (settings.field "setups"))
  let active := (settings.field "activeSetup").toInt (-1)
  { (loadScreens settings).foldl (LayoutModel.appendNew qt) { m.toLayoutModel with screens := [] } with
    options := .ofSettings settings
    ignoreAutoConfigClient := (settings.field "ignoreAutoConfigClient").toBool false
    enableDragAndDrop := (settings.field "enableDragAndDrop").toBool true
    hotkeys := (settings.field "hotkeys").toArray.map Hotkey.ofSettings
    setups := setups
    activeSetup := if active < 0 ∨ setups.length ≤ active then none else some active.toNat
    mirrorHotkeys := m.mirrorHotkeys }

def new (store : Option LayoutStore) : WholeLayout := ⟨LayoutModel.empty store, false, true, []⟩

def opened (settings : Value) : WholeLayout := (new (some LayoutModel.emptyStore)).load qt settings

end WholeLayout

section RoundTrip

variable {rest : List (String × Value)}

lemma toArray_readArray {settings : Value} {name : String} {values : List Value}
    (h : settings.field (name ++ "Array") = (writeArray name values).2) : (readArray settings name).toArray = values := by
  rw [readArray, h, writeArray, Value.toArray_array, Value.toArray_array]
  apply Value.map_read
  intro value _
  rw [Value.field, List.lookup_cons_self, Option.getD_some]

lemma vector_readArray {n : ℕ} {settings : Value} {name : String} {values : Fin n → Bool} (default : Fin n → Bool)
    (h : settings.field (name ++ "Array") = (writeArray name ((List.finRange n).map fun i => .bool (values i))).2) :
    (readArray settings name).vector (Value.toBool · false) default = values := by
  have harray : readArray settings name = .ofVector .bool values := by
    rw [Value.ofVector, ← toArray_readArray h]
    rfl
  rw [harray]
  exact Value.vector_ofVector (fun _ => rfl) default

lemma readModifier_saveModifier (i : Fin 5) (k : Fin 6) : readModifier i (saveModifier i k) = k := by
  by_cases hk : k = i.castSucc
  · rw [saveModifier, if_pos hk, hk]
    rfl
  · have hnonneg : ¬(k.val : ℤ) < 0 := by omega
    rw [saveModifier, if_neg hk, readModifier, Value.toInt_int]
    exact (if_neg hnonneg).trans (ofBounded_val k)

def DisplayConfig.written (d : DisplayConfig) : DisplayConfig :=
  { d with mmWidth := max 0 d.mmWidth, mmHeight := max 0 d.mmHeight }

namespace ScreenConfig

variable {s : ScreenConfig}

def Scaled (s : ScreenConfig) : Prop := kMinScale ≤ s.scale ∧ s.scale ≤ kMaxScale

instance (s : ScreenConfig) : Decidable s.Scaled := inferInstanceAs (Decidable (_ ∧ _))

def written (s : ScreenConfig) : ScreenConfig :=
  { s with
    displays := s.displays.map DisplayConfig.written
    aliases := s.aliases.filter fun a => decide (a ≠ []) }

lemma readScreen_saveScreen (s : ScreenConfig) : readScreen s.saveScreen = s.written := by
  have hdisplays : (s.saveScreen.field "displayArray").toArray.map readDisplay = s.displays.map DisplayConfig.written := by
    have hfield : s.saveScreen.field "displayArray" = .array (s.displays.map saveDisplay) := rfl
    rw [hfield, Value.toArray_array, List.map_map]
    rfl
  have haliases : (readArray s.saveScreen "alias").toArray = s.aliases.map .text := toArray_readArray rfl
  have hmodifiers : (readArray s.saveScreen "modifier").toArray = (List.finRange 5).map fun i => saveModifier i (s.modifiers i) :=
    toArray_readArray rfl
  have hmodifier : (fun i : Fin 5 => ((readArray s.saveScreen "modifier").toArray[i.val]?).elim i.castSucc (readModifier i)) =
      s.modifiers := by
    funext i
    rw [hmodifiers, List.getElem?_map, List.getElem?_eq_getElem (by rw [List.length_finRange]; exact i.isLt)]
    simp [readModifier_saveModifier]
  have hcorners : (readArray s.saveScreen "switchCorner").vector (Value.toBool · false) (fun _ => false) = s.corners :=
    vector_readArray _ rfl
  have hfixes : (readArray s.saveScreen "fix").vector (Value.toBool · false) (fun _ => false) = s.fixes :=
    vector_readArray _ rfl
  rw [readScreen, hdisplays, haliases, hmodifier, hcorners, hfixes, Value.map_read fun _ _ => rfl]
  rfl

lemma cornered_of_normalised (h : s.written.normaliseDisplays.displays = s.displays) :
    Cornered s.displays ∧ ∀ d ∈ s.displays, 0 ≤ d.mmWidth ∧ 0 ≤ d.mmHeight := by
  by_cases hnil : s.displays = []
  · rw [normaliseDisplays, written, hnil] at h
    exact absurd h (List.cons_ne_nil _ _)
  have hne : (s.displays.map DisplayConfig.written).map DisplayConfig.clamped ≠ [] := by simpa using hnil
  obtain ⟨dx, dy, hmoved, ⟨hx, ex, hex, hdx⟩, hy, ey, hey, hdy⟩ := moveToOrigin_spec hne
  have hdisplays : s.written.normaliseDisplays.displays =
      moveToOrigin ((s.displays.map DisplayConfig.written).map DisplayConfig.clamped) := by
    rw [normaliseDisplays, written]
    split
    · rename_i hmap
      exact absurd hmap hne
    · rename_i hmap
      rw [hmap]
  rw [hdisplays, hmoved, List.map_map, List.map_map] at h
  have heach (d : DisplayConfig) (hd : d ∈ s.displays) : d.written.clamped.moved dx dy = d :=
    List.map_inj_left.mp (h.trans (List.map_id s.displays).symm) d hd
  rw [List.map_map] at hex hey hx hy
  obtain ⟨fx, hfx, rfl⟩ := List.mem_map.mp hex
  obtain ⟨fy, hfy, rfl⟩ := List.mem_map.mp hey
  have hfirst := congrArg DisplayConfig.x (heach fx hfx)
  have hupper := congrArg DisplayConfig.y (heach fy hfy)
  simp only [Function.comp_apply, DisplayConfig.moved, DisplayConfig.clamped, DisplayConfig.written, qBound,
    kMaxDimension] at hfirst hupper hdx hdy
  have hcorner : fx.x = 0 ∧ fy.y = 0 := by omega
  have hall (d : DisplayConfig) (hd : d ∈ s.displays) : d.Placed ∧ 0 ≤ d.mmWidth ∧ 0 ≤ d.mmHeight := by
    have hleft := hx d.written.clamped (List.mem_map_of_mem hd)
    have htop := hy d.written.clamped (List.mem_map_of_mem hd)
    have hsame := heach d hd
    obtain ⟨x, y, width, height, mmWidth, mmHeight⟩ := d
    simp only [DisplayConfig.moved, DisplayConfig.clamped, DisplayConfig.written, qBound, kMaxDimension,
      DisplayConfig.mk.injEq] at hleft htop hsame
    simp only [DisplayConfig.Placed, kMaxDimension]
    omega
  exact ⟨⟨fun d hd => (hall d hd).1, ⟨fx, hfx, hcorner.1⟩, fy, hfy, hcorner.2⟩, fun d hd => (hall d hd).2⟩

def reloaded (s : ScreenConfig) : ScreenConfig := LayoutModel.loadScreen s.written

lemma reloaded_eq (h : s.Scaled) : s.reloaded = s.written.normaliseDisplays := by
  have hscale : qBound kMinScale s.written.scale kMaxScale = s.written.scale := qBound_eq h.1 h.2
  rw [reloaded, LayoutModel.loadScreen, hscale]

lemma loadScreen_saveScreen (s : ScreenConfig) : loadScreen s.saveScreen = s.reloaded := by
  rw [loadScreen, readScreen_saveScreen, reloaded]

structure Writable (s : ScreenConfig) : Prop where
  name : s.name ≠ []
  cornered : Cornered s.displays
  sizes : ∀ d ∈ s.displays, 0 ≤ d.mmWidth ∧ 0 ≤ d.mmHeight
  aliases : [] ∉ s.aliases

instance (s : ScreenConfig) : Decidable s.Writable :=
  decidable_of_iff (s.name ≠ [] ∧ Cornered s.displays ∧ (∀ d ∈ s.displays, 0 ≤ d.mmWidth ∧ 0 ≤ d.mmHeight) ∧ [] ∉ s.aliases)
    ⟨fun h => ⟨h.1, h.2.1, h.2.2.1, h.2.2.2⟩, fun h => ⟨h.name, h.cornered, h.sizes, h.aliases⟩⟩

lemma reloaded_eq_iff (h : s.Scaled) : s.name ≠ [] ∧ s.reloaded = s ↔ s.Writable := by
  rw [reloaded_eq h]
  constructor
  · rintro ⟨hname, heq⟩
    obtain ⟨hcornered, hsizes⟩ := cornered_of_normalised (congrArg displays heq)
    refine ⟨hname, hcornered, hsizes, fun hmem => ?_⟩
    have halias : (s.aliases.filter fun a => decide (a ≠ [])) = s.aliases := by
      have hlabel := congrArg (fun s => s.label.aliases) heq
      rw [LayoutModel.label_normaliseDisplays] at hlabel
      exact hlabel
    rw [← halias] at hmem
    simp at hmem
  · rintro ⟨hname, hcornered, hsizes, halias⟩
    have hdisplays : s.displays.map DisplayConfig.written = s.displays := by
      refine (List.map_congr_left fun d hd => ?_).trans (List.map_id s.displays)
      rw [DisplayConfig.written, max_eq_right (hsizes d hd).1, max_eq_right (hsizes d hd).2]
      rfl
    have hfilter : (s.aliases.filter fun a => decide (a ≠ [])) = s.aliases := by
      apply List.filter_eq_self.mpr
      intro a ha
      exact decide_eq_true fun heq => halias (heq ▸ ha)
    refine ⟨hname, ?_⟩
    rw [written, hdisplays, hfilter]
    exact normaliseDisplays_eq hcornered

end ScreenConfig

namespace LayoutOptions

variable {o : LayoutOptions}

def reloaded (o : LayoutOptions) : LayoutOptions :=
  { o with
    clipboardSharingSize := (BitVec.ofInt 64 (BitVec.ofNat 32 o.clipboardSharingSize).toInt).toNat
    dimmingPercentage := qBound 0 o.dimmingPercentage 100 }

lemma ofSettings_settingsFields (o : LayoutOptions) : ofSettings (.object (o.settingsFields ++ rest)) = o.reloaded := by
  have hcorners : (readArray (.object (o.settingsFields ++ rest)) "switchCorner").vector (Value.toBool · false) (fun _ => false) =
      o.switchCorners := vector_readArray _ rfl
  rw [ofSettings, hcorners]
  rfl

/-- The size is one that an `int` holds, or that it is taken for. -/
def SizeKept (o : LayoutOptions) : Prop :=
  o.clipboardSharingSize < 2 ^ 31 ∨ 2 ^ 64 - 2 ^ 31 ≤ o.clipboardSharingSize ∧ o.clipboardSharingSize < 2 ^ 64

instance (o : LayoutOptions) : Decidable o.SizeKept := inferInstanceAs (Decidable (_ ∨ _))

lemma reloaded_eq_iff (hdimming : 0 ≤ o.dimmingPercentage ∧ o.dimmingPercentage ≤ 100) : o.reloaded = o ↔ o.SizeKept := by
  have hsize : (BitVec.ofInt 64 (BitVec.ofNat 32 o.clipboardSharingSize).toInt).toNat = o.clipboardSharingSize ↔ o.SizeKept := by
    rw [SizeKept, BitVec.toNat_ofInt, BitVec.toInt_eq_toNat_cond, BitVec.toNat_ofNat]
    split_ifs with hneg
    · omega
    · omega
  rw [reloaded, qBound_eq hdimming.1 hdimming.2, ← hsize]
  constructor
  · exact congrArg clipboardSharingSize
  · intro heq
    rw [heq]

end LayoutOptions

def KeyAction.loaded (a : KeyAction) : KeyAction := { a with keySequence := a.keySequence.loaded }

def Hotkey.loaded (h : Hotkey) : Hotkey := ⟨h.keySequence.loaded, h.actions.map KeyAction.loaded⟩

lemma KeySequence.ofSettings_settingsFields (k : KeySequence) : ofSettings (.object (k.settingsFields ++ rest)) = k.loaded := by
  have hkeys : (Value.object (k.settingsFields ++ rest)).field "keys" =
      .array (k.sequence.map fun key => .object [("key", .int key.toInt)]) := rfl
  rw [ofSettings, hkeys, loaded, Value.toArray_array]
  congr 1
  exact Value.map_read fun key _ => BitVec.ofInt_toInt

lemma KeyAction.ofSettings_saveSettings (a : KeyAction) : ofSettings a.saveSettings = a.loaded := by
  obtain ⟨keySequence, type, typeScreenNames, switchScreenName, switchDirection, lockCursorMode⟩ := a
  rw [saveSettings, ofSettings, loaded, KeySequence.ofSettings_settingsFields, KeyAction.mk.injEq]
  exact ⟨rfl, ActionType.ofInt_toNat type, Value.map_read fun _ _ => rfl, rfl, ofBounded_val switchDirection,
    ofBounded_val lockCursorMode, rfl, rfl⟩

lemma Hotkey.ofSettings_saveSettings (h : Hotkey) : ofSettings h.saveSettings = h.loaded := by
  have hactions : h.saveSettings.field "actions" = .array (h.actions.map KeyAction.saveSettings) := rfl
  rw [ofSettings, hactions, saveSettings, KeySequence.ofSettings_settingsFields, loaded, Value.toArray_array, List.map_map]
  congr 1
  exact List.map_congr_left fun a _ => a.ofSettings_saveSettings

end RoundTrip

namespace Setup

variable {qt : Qt} {setup setup' : Setup} {screens : List ScreenConfig} {key : Name} {s : ScreenConfig}

/-- The keys are the names of the computers without case, and no two are the same. -/
structure Keyed (qt : Qt) (setup : Setup) : Prop where
  nodup : (setup.map Prod.fst).Nodup
  keys : ∀ e ∈ setup, e.1 = qt.toLower e.2.name

lemma find_eq_some (h : setup.Keyed qt) : setup.find key = some s ↔ (key, s) ∈ setup := by
  refine ⟨mem_of_find, fun hmem => ?_⟩
  obtain ⟨before, behind, rfl⟩ := List.append_of_mem hmem
  rw [find, List.lookup_eq_some_iff]
  refine ⟨before, behind, rfl, fun e he => ?_⟩
  have hnodup := h.nodup
  rw [List.map_append, List.map_cons] at hnodup
  have hne := (List.nodup_append.mp hnodup).2.2 e.1 (List.mem_map_of_mem he) key List.mem_cons_self
  simpa using hne.symm

lemma Keyed.insert (h : setup.Keyed qt) (s : ScreenConfig) : (setup.insert (qt.toLower s.name) s).Keyed qt := by
  constructor
  · refine List.nodup_cons.mpr ⟨fun hmem => ?_, h.nodup.sublist (List.filter_sublist.map Prod.fst)⟩
    obtain ⟨e, he, hkey⟩ := List.mem_map.mp hmem
    simpa [hkey] using (List.mem_filter.mp he).2
  · intro e he
    rcases List.mem_cons.mp he with rfl | he
    · rfl
    · exact h.keys e (List.mem_of_mem_filter he)

lemma keyed_ofScreens (qt : Qt) (screens : List ScreenConfig) : (ofScreens qt screens).Keyed qt := by
  have hfold (rest : List ScreenConfig) : ∀ setup : Setup, setup.Keyed qt →
      (rest.foldl (fun setup s => setup.insert (qt.toLower s.name) s) setup).Keyed qt := by
    induction rest with
    | nil => exact fun setup h => h
    | cons s rest ih => exact fun setup h => ih _ (h.insert s)
  exact hfold screens [] ⟨List.nodup_nil, by simp⟩

lemma mem_ofScreens (h : (screens.map fun s => qt.toLower s.name).Nodup) {e : Name × ScreenConfig} :
    e ∈ ofScreens qt screens ↔ ∃ s ∈ screens, e = (qt.toLower s.name, s) := by
  have hfold (rest : List ScreenConfig) : ∀ setup : Setup, (rest.map fun s => qt.toLower s.name).Nodup →
      (∀ e ∈ setup, e.1 ∉ rest.map fun s => qt.toLower s.name) →
      (e ∈ rest.foldl (fun setup s => setup.insert (qt.toLower s.name) s) setup ↔
        e ∈ setup ∨ ∃ s ∈ rest, e = (qt.toLower s.name, s)) := by
    induction rest with
    | nil => simp
    | cons s rest ih =>
      intro setup hnodup hnew
      obtain ⟨hs, hrest⟩ := List.nodup_cons.mp hnodup
      have hfilter : (setup.filter fun e => decide (e.1 ≠ qt.toLower s.name)) = setup := by
        apply List.filter_eq_self.mpr
        intro d hd
        exact decide_eq_true fun heq => hnew d hd (heq ▸ List.mem_cons_self)
      have hinsert : setup.insert (qt.toLower s.name) s = (qt.toLower s.name, s) :: setup := by
        rw [Setup.insert, hfilter]
      rw [List.foldl_cons, hinsert, ih _ hrest]
      · simp only [List.mem_cons, exists_eq_or_imp]
        tauto
      · intro d hd
        rcases List.mem_cons.mp hd with rfl | hd
        · exact hs
        · exact fun hmem => hnew d hd (List.mem_cons_of_mem _ hmem)
  rw [ofScreens, hfold screens [] h (by simp)]
  simp

end Setup

namespace ScreenConfig

variable {s : ScreenConfig}

def kept (s : ScreenConfig) : ScreenConfig :=
  { ScreenConfig.new s.name with
    x := s.x
    y := s.y
    displays := s.displays
    displaysReported := s.displaysReported
    displaysTyped := s.displaysTyped
    scale := s.scale
    scaleTyped := s.scaleTyped }

lemma ofSetupJson_setupJson (s : ScreenConfig) : ofSetupJson s.setupJson = s.kept := by
  have hdisplays : s.setupJson.field "displays" = .array (s.displays.map displayJson) := rfl
  rw [ofSetupJson, hdisplays, Value.toArray_array, Value.map_read fun _ _ => rfl]
  rfl

lemma cornered_of_fromJson (h : displaysFromJson s.displays = s.displays) (hne : s.displays ≠ []) :
    Cornered s.displays ∧ s.displays.length ≤ kMaxReportedDisplays ∧ ∀ d ∈ s.displays, d.MeasuredOrNot := by
  have hreport : Report s.displays := h ▸ cleanDisplays_report _
  rw [displaysFromJson, List.take_of_length_le (hreport.length.trans (by decide))] at h
  have hwithin := (cleanDisplays_eq_iff hreport).mp h
  obtain ⟨hx, hy⟩ := hreport.corner hne
  refine ⟨⟨fun d hd => ?_, hx, hy⟩, hreport.length, fun d hd => (hreport.written d hd).measured⟩
  have hwritten := hreport.written d hd
  exact ⟨⟨hwritten.x.1, (hwithin d hd).1⟩, ⟨hwritten.y.1, (hwithin d hd).2⟩, hwritten.width, hwritten.height⟩

lemma loadStored_eq_iff (hscale : s.Scaled) :
    LayoutModel.loadStored s = s.kept ↔ s.StorableInSetup := by
  rw [LayoutModel.loadStored, kept, qBound_eq hscale.1 hscale.2]
  constructor
  · intro heq
    have hdisplays : (if displaysFromJson s.displays = [] then [.default] else displaysFromJson s.displays) = s.displays :=
      congrArg displays heq
    split_ifs at hdisplays with hnil
    · rw [← hdisplays] at hnil
      exact absurd hnil (by decide)
    · obtain ⟨hcornered, hlength, hsize⟩ := cornered_of_fromJson hdisplays (hdisplays ▸ hnil)
      exact ⟨⟨hcornered, hscale⟩, hlength, hsize⟩
  · intro h
    have hne : s.displays ≠ [] := by
      obtain ⟨d, hd, -⟩ := h.1.1.2.1
      exact List.ne_nil_of_mem hd
    rw [displaysFromJson_eq h, if_neg hne]

end ScreenConfig

namespace Setup

variable {qt : Qt} {setup : Setup} {key : Name} {t : ScreenConfig}

def Same (a b : Setup) : Prop := ∀ key, (a.find key).map ScreenConfig.kept = (b.find key).map ScreenConfig.kept

structure Storable (setup : Setup) : Prop where
  ne_nil : setup ≠ []
  screens : ∀ e ∈ setup, e.2.name ≠ [] ∧ e.2.StorableInSetup

instance (setup : Setup) : Decidable setup.Storable :=
  decidable_of_iff (setup ≠ [] ∧ ∀ e ∈ setup, e.2.name ≠ [] ∧ e.2.StorableInSetup)
    ⟨fun h => ⟨h.1, h.2⟩, fun h => ⟨h.ne_nil, h.screens⟩⟩

def reloaded (qt : Qt) (setup : Setup) : Setup := LayoutModel.loadSetup qt (setup.map fun e => e.2.kept)

lemma mem_reloaded (h : setup.Keyed qt) {d : Name × ScreenConfig} :
    d ∈ setup.reloaded qt ↔ ∃ e ∈ setup, e.2.name ≠ [] ∧ d = (e.1, LayoutModel.loadStored e.2) := by
  have hscreens : (((setup.map fun e => e.2.kept).filter fun s => decide (s.name ≠ [])).map LayoutModel.loadStored) =
      (setup.filter fun e => decide (e.2.name ≠ [])).map fun e => LayoutModel.loadStored e.2 := by
    rw [List.filter_map, List.map_map]
    rfl
  have hnodup : (((setup.filter fun e => decide (e.2.name ≠ [])).map fun e => LayoutModel.loadStored e.2).map
      fun s => qt.toLower s.name).Nodup := by
    rw [List.map_map]
    have hkeys : (setup.filter fun e => decide (e.2.name ≠ [])).map ((fun s => qt.toLower s.name) ∘ fun e => LayoutModel.loadStored e.2) =
        (setup.filter fun e => decide (e.2.name ≠ [])).map Prod.fst :=
      List.map_congr_left fun e he => (h.keys e (List.mem_of_mem_filter he)).symm
    rw [hkeys]
    exact h.nodup.sublist (List.filter_sublist.map Prod.fst)
  rw [reloaded, LayoutModel.loadSetup, hscreens, mem_ofScreens hnodup]
  constructor
  · rintro ⟨s, hs, rfl⟩
    obtain ⟨e, he, rfl⟩ := List.mem_map.mp hs
    obtain ⟨hmem, hname⟩ := List.mem_filter.mp he
    exact ⟨e, hmem, of_decide_eq_true hname, Prod.ext (h.keys e hmem).symm rfl⟩
  · rintro ⟨e, he, hname, rfl⟩
    exact ⟨_, List.mem_map_of_mem (List.mem_filter.mpr ⟨he, decide_eq_true hname⟩), Prod.ext (h.keys e he) rfl⟩

lemma keyed_reloaded (qt : Qt) (setup : Setup) : (setup.reloaded qt).Keyed qt := keyed_ofScreens qt _

lemma same_reloaded_iff (h : setup.Keyed qt) (hscale : ∀ e ∈ setup, e.2.Scaled) :
    Same (setup.reloaded qt) setup ↔ ∀ e ∈ setup, e.2.name ≠ [] ∧ e.2.StorableInSetup := by
  constructor
  · intro hsame e he
    have hfind := (find_eq_some h).mpr he
    have hkey := hsame e.1
    rw [hfind, Option.map_some] at hkey
    obtain ⟨t, ht, hkept⟩ := Option.map_eq_some_iff.mp hkey
    obtain ⟨d, hd, hname, hentry⟩ := (mem_reloaded h).mp ((find_eq_some (keyed_reloaded qt setup)).mp ht)
    obtain ⟨hfirst, rfl⟩ := Prod.mk.inj hentry
    have hde : d.2 = e.2 := by
      have hfound := (find_eq_some h).mpr (hfirst ▸ hd : (e.1, d.2) ∈ setup)
      exact Option.some.inj (hfound.symm.trans hfind)
    rw [hde] at hname hkept
    exact ⟨hname, (ScreenConfig.loadStored_eq_iff (hscale e he)).mp hkept⟩
  · intro hall key
    cases hfind : setup.find key with
    | none =>
      cases hreloaded : (setup.reloaded qt).find key with
      | none => rfl
      | some t =>
        obtain ⟨e, he, -, hentry⟩ := (mem_reloaded h).mp ((find_eq_some (keyed_reloaded qt setup)).mp hreloaded)
        obtain ⟨rfl, -⟩ := Prod.mk.inj hentry
        rw [(find_eq_some h).mpr he] at hfind
        exact absurd hfind (by simp)
    | some s =>
      have hmem := (find_eq_some h).mp hfind
      obtain ⟨hname, hstorable⟩ := hall _ hmem
      have hloaded : (setup.reloaded qt).find key = some (LayoutModel.loadStored s) :=
        (find_eq_some (keyed_reloaded qt setup)).mpr ((mem_reloaded h).mpr ⟨_, hmem, hname, rfl⟩)
      rw [hloaded, Option.map_some, Option.map_some]
      exact congrArg some ((ScreenConfig.loadStored_eq_iff (hscale _ hmem)).mpr hstorable)

end Setup

end InputLeap.Gui
