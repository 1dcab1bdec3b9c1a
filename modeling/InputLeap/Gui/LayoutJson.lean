import InputLeap.Gui.ConfigText
import InputLeap.Gui.DisplayReports
import InputLeap.Gui.EnteringNames
import InputLeap.Lib.Value

/-! The whole configuration as a document, which a client gets, edits and sends back. -/

namespace InputLeap.Gui

open InputLeap.Lib InputLeap.Lib.Text

structure WholeLayout extends LayoutModel where
  ignoreAutoConfigClient : Bool
  enableDragAndDrop : Bool
  mirrorHotkeys : List Value

namespace KeySequence

def jsonFields (k : KeySequence) : List (String × Value) := [("keys", .array (k.sequence.map fun key => .int key.toInt))]

def ofJson (json : Value) : KeySequence :=
  ⟨((json.field "keys").toArray.take 16).map fun key => BitVec.ofInt 32 (key.toInt 0), 0, true⟩

end KeySequence

def ActionType.all : List ActionType :=
  [keyDown, keyUp, keystroke, switchToScreen, toggleScreen, switchInDirection, lockCursorToScreen, mouseDown, mouseUp,
    mousebutton]

def ActionType.ofInt (n : ℤ) : ActionType := all.getD (qBound 0 n 9).toNat .mousebutton

def ofBounded (n : ℕ) (k : ℤ) : Fin (n + 1) := ⟨(qBound 0 k n).toNat, by rw [qBound]; omega⟩

namespace KeyAction

def toJson (a : KeyAction) : Value :=
  .object (a.keySequence.jsonFields ++
    [("type", .int a.type.toNat), ("typeScreenNames", .array (a.typeScreenNames.map .text)),
      ("switchScreenName", .text a.switchScreenName), ("switchInDirection", .int a.switchDirection.val),
      ("lockCursorToScreen", .int a.lockCursorMode.val), ("activeOnRelease", .bool a.activeOnRelease),
      ("hasScreens", .bool a.haveScreens)])

def ofJson (json : Value) : KeyAction where
  keySequence := .ofJson json
  type := .ofInt ((json.field "type").toInt 0)
  typeScreenNames := (json.field "typeScreenNames").toArray.map Value.toText
  switchScreenName := (json.field "switchScreenName").toText
  switchDirection := ofBounded 3 ((json.field "switchInDirection").toInt 0)
  lockCursorMode := ofBounded 2 ((json.field "lockCursorToScreen").toInt 0)
  activeOnRelease := (json.field "activeOnRelease").toBool false
  haveScreens := (json.field "hasScreens").toBool false

end KeyAction

namespace Hotkey

def toJson (h : Hotkey) : Value :=
  .object (h.keySequence.jsonFields ++ [("actions", .array (h.actions.map KeyAction.toJson))])

def ofJson (json : Value) : Hotkey := ⟨.ofJson json, ((json.field "actions").toArray.take 64).map KeyAction.ofJson⟩

end Hotkey

def displayJson (d : DisplayConfig) : Value := .object ((displayMap d).map fun e => (e.1, .int e.2))

def displayOfJson (json : Value) : DisplayConfig where
  x := (json.field "x").toInt 0
  y := (json.field "y").toInt 0
  width := (json.field "width").toInt kDefaultWidth
  height := (json.field "height").toInt kDefaultHeight
  mmWidth := qBound 0 ((json.field "mmWidth").toInt 0) 10000
  mmHeight := qBound 0 ((json.field "mmHeight").toInt 0) 10000

namespace ScreenConfig

def toJson (s : ScreenConfig) : Value :=
  .object
    [("name", .text s.name), ("x", .int s.x), ("y", .int s.y), ("displays", .array (s.displays.map displayJson)),
      ("displaysReported", .bool s.displaysReported), ("displaysTyped", .bool s.displaysTyped), ("scale", .int s.scale),
      ("scaleTyped", .bool s.scaleTyped), ("aliases", .array (s.aliases.map .text)),
      ("modifiers", .ofVector (fun k : Fin 6 => .int k.val) s.modifiers), ("corners", .ofVector .bool s.corners),
      ("cornerSize", .int s.cornerSize), ("fixes", .ofVector .bool s.fixes)]

def ofJson (json : Value) : ScreenConfig :=
  let s : ScreenConfig := { ScreenConfig.new (json.field "name").toText with
    x := (json.field "x").toInt 0
    y := (json.field "y").toInt 0
    scale := qBound kMinScale ((json.field "scale").toInt 1000) kMaxScale
    scaleTyped := (json.field "scaleTyped").toBool false
    displays := (json.field "displays").toArray.map displayOfJson }
  { s.normaliseDisplays with
    displaysReported := (json.field "displaysReported").toBool false
    displaysTyped := (json.field "displaysTyped").toBool false
    aliases := (json.field "aliases").toArray.map Value.toText
    modifiers := (json.field "modifiers").vector (fun k => LayoutModel.ofInt6 (k.toInt 0)) fun i => i.castSucc
    corners := (json.field "corners").vector (Value.toBool · false) fun _ => false
    cornerSize := max 0 ((json.field "cornerSize").toInt 0)
    fixes := (json.field "fixes").vector (Value.toBool · false) fun _ => false }

end ScreenConfig

namespace LayoutOptions

def clipboardSharingSizeMb (o : LayoutOptions) : ℤ := (BitVec.ofNat 32 (o.clipboardSharingSize / (1000 * 1000))).toInt

def jsonFields (o : LayoutOptions) : List (String × Value) :=
  [("hasHeartbeat", .bool o.hasHeartbeat), ("heartbeat", .int o.heartbeat),
    ("relativeMouseMoves", .bool o.relativeMouseMoves), ("screenSaverSync", .bool o.screenSaverSync),
    ("win32KeepForeground", .bool o.win32KeepForeground), ("hasSwitchDelay", .bool o.hasSwitchDelay),
    ("switchDelay", .int o.switchDelay), ("hasSwitchDoubleTap", .bool o.hasSwitchDoubleTap),
    ("switchDoubleTap", .int o.switchDoubleTap), ("switchCornerSize", .int o.switchCornerSize),
    ("switchCorners", .ofVector .bool o.switchCorners), ("clipboardSharing", .bool o.clipboardSharing),
    ("clipboardSharingSizeMb", .int o.clipboardSharingSizeMb), ("dimmingEnabled", .bool o.dimmingEnabled),
    ("dimmingPercentage", .int o.dimmingPercentage)]

def ofJson (json : Value) : LayoutOptions where
  hasHeartbeat := (json.field "hasHeartbeat").toBool false
  heartbeat := (json.field "heartbeat").toInt 5000
  relativeMouseMoves := (json.field "relativeMouseMoves").toBool false
  screenSaverSync := (json.field "screenSaverSync").toBool true
  win32KeepForeground := (json.field "win32KeepForeground").toBool false
  hasSwitchDelay := (json.field "hasSwitchDelay").toBool false
  switchDelay := (json.field "switchDelay").toInt 250
  hasSwitchDoubleTap := (json.field "hasSwitchDoubleTap").toBool false
  switchDoubleTap := (json.field "switchDoubleTap").toInt 250
  switchCornerSize := (json.field "switchCornerSize").toInt 0
  switchCorners := (json.field "switchCorners").vector (Value.toBool · false) fun _ => false
  clipboardSharing := (json.field "clipboardSharing").toBool true
  clipboardSharingSize := (max 1 ((json.field "clipboardSharingSizeMb").toInt 100)).toNat * 1000 * 1000
  dimmingEnabled := (json.field "dimmingEnabled").toBool false
  dimmingPercentage := qBound 0 ((json.field "dimmingPercentage").toInt 30) 100

end LayoutOptions

/-- `^[A-Za-z0-9._-]{1,255}$`, where the end may be that of a line. -/
def matchesNamePattern (name : Name) : Bool :=
  let text := if name.getLast? = some '\n' then name.dropLast else name
  decide (1 ≤ text.length ∧ text.length ≤ 255) &&
    text.all fun c => c.isAlphanum || c ∈ ['.', '_', '-']

def LayoutModel.appendNew (qt : Qt) (m : LayoutModel) (s : ScreenConfig) : LayoutModel :=
  if s.name = [] ∨ m.hasScreen qt s.name then m else m.append s

namespace WholeLayout

variable (qt : Qt) (lower : ℕ → ℕ) (m : WholeLayout)

def optionsJson : Value :=
  .object (m.options.jsonFields ++
    [("ignoreAutoConfigClient", .bool m.ignoreAutoConfigClient), ("enableDragAndDrop", .bool m.enableDragAndDrop)])

def hotkeyEntry (h : Hotkey) : Option Value :=
  (h.actions.mapM (KeyAction.text lower)).map fun actions =>
    .object [("text", .text (h.text lower)), ("key", .text (h.keySequence.toString lower)),
      ("actions", .array (actions.map .text))]

def hotkeyList : Option (List Value) :=
  if m.mirrorHotkeys ≠ [] then some m.mirrorHotkeys else m.hotkeys.mapM (hotkeyEntry lower)

def toJson : Option Value :=
  (m.hotkeyList lower).map fun hotkeyList =>
    .object ([("serverName", .text m.serverName), ("screens", .array (m.screens.map ScreenConfig.toJson)),
      ("options", m.optionsJson), ("hotkeys", .array hotkeyList)] ++
      if m.mirrorHotkeys = [] then [("hotkeyData", .array (m.hotkeys.map Hotkey.toJson))] else [])

def loadJson (json : Value) : WholeLayout :=
  let screens := (json.field "screens").toArray.map ScreenConfig.ofJson
  let options := json.field "options"
  let hotkeyData := json.field "hotkeyData"
  { screens.foldl (LayoutModel.appendNew qt) { m.toLayoutModel with screens := [] } with
    serverName := (json.field "serverName").toText
    options := .ofJson options
    ignoreAutoConfigClient := (options.field "ignoreAutoConfigClient").toBool false
    enableDragAndDrop := (options.field "enableDragAndDrop").toBool true
    hotkeys := (hotkeyData.toArray.map Hotkey.ofJson).filter fun h =>
      h.keySequence.isValid && decide (h.keySequence.sequence ≠ [])
    mirrorHotkeys := if hotkeyData.isArray then [] else (json.field "hotkeys").toArray }

def screenRefused (screen : Value) : Option Name :=
  let name := (screen.field "name").toText
  if matchesNamePattern name = false then some ('\"' :: name.take 40 ++ "\" is not a valid screen name".toList)
  else if 16 < (screen.field "displays").toArray.length then some (name ++ " has too many displays".toList)
  else none

def refused (json : Value) : Option Name :=
  let screens := (json.field "screens").toArray
  if (json.field "screens").isArray = false ∨ (json.field "options").isObject = false then
    some "not a server configuration".toList
  else if 64 < screens.length then some (formatInt screens.length ++ " computers is too many".toList)
  else
    match screens.findSome? screenRefused with
    | some why => some why
    | none => if 256 < (json.field "hotkeyData").toArray.length then some "too many hotkeys".toList else none

def save : WholeLayout := { m with toLayoutModel := m.toLayoutModel.save qt }

def replaceWith (json : Value) : Except Name WholeLayout :=
  match refused json with
  | some why => .error why
  | none => .ok (save qt { m.loadJson qt json with serverName := m.serverName })

end WholeLayout

section Arrived

variable {rest : List (String × Value)}

def KeySequence.arrived (k : KeySequence) : KeySequence := ⟨k.sequence.take 16, 0, true⟩

def KeyAction.arrived (a : KeyAction) : KeyAction := { a with keySequence := a.keySequence.arrived }

def Hotkey.arrived (h : Hotkey) : Hotkey := ⟨h.keySequence.arrived, (h.actions.take 64).map KeyAction.arrived⟩

def DisplayConfig.arrived (d : DisplayConfig) : DisplayConfig :=
  { d with mmWidth := qBound 0 d.mmWidth 10000, mmHeight := qBound 0 d.mmHeight 10000 }

def ScreenConfig.arrived (s : ScreenConfig) : ScreenConfig :=
  let s : ScreenConfig := { s with
    scale := qBound kMinScale s.scale kMaxScale
    displays := s.displays.map DisplayConfig.arrived
    cornerSize := max 0 s.cornerSize }
  s.normaliseDisplays

def LayoutOptions.arrived (o : LayoutOptions) : LayoutOptions :=
  { o with
    clipboardSharingSize := (max 1 o.clipboardSharingSizeMb).toNat * 1000 * 1000
    dimmingPercentage := qBound 0 o.dimmingPercentage 100 }

lemma KeySequence.ofJson_jsonFields (k : KeySequence) : ofJson (.object (k.jsonFields ++ rest)) = k.arrived := by
  have hkeys : (Value.object (k.jsonFields ++ rest)).field "keys" = .array (k.sequence.map fun key => .int key.toInt) := rfl
  rw [ofJson, hkeys, arrived, Value.toArray_array, ← List.map_take]
  congr 1
  exact Value.map_read fun key _ => BitVec.ofInt_toInt

lemma ActionType.ofInt_toNat (t : ActionType) : ofInt t.toNat = t := by
  cases t <;> rfl

lemma ofBounded_val {n : ℕ} (i : Fin (n + 1)) : ofBounded n i.val = i := by
  apply Fin.ext
  rw [ofBounded]
  dsimp only
  rw [qBound_eq (by omega) (by omega), Int.toNat_natCast]

lemma KeyAction.ofJson_toJson (a : KeyAction) : ofJson a.toJson = a.arrived := by
  obtain ⟨keySequence, type, typeScreenNames, switchScreenName, switchDirection, lockCursorMode⟩ := a
  rw [toJson, ofJson, arrived, KeySequence.ofJson_jsonFields, KeyAction.mk.injEq]
  exact ⟨rfl, ActionType.ofInt_toNat type, Value.map_read fun _ _ => rfl, rfl, ofBounded_val switchDirection,
    ofBounded_val lockCursorMode, rfl, rfl⟩

lemma Hotkey.ofJson_toJson (h : Hotkey) : ofJson h.toJson = h.arrived := by
  have hactions : (Value.object (h.keySequence.jsonFields ++ [("actions", .array (h.actions.map KeyAction.toJson))])).field
      "actions" = .array (h.actions.map KeyAction.toJson) := rfl
  rw [toJson, ofJson, KeySequence.ofJson_jsonFields, hactions, arrived, Value.toArray_array, ← List.map_take, List.map_map]
  congr 1
  exact List.map_congr_left fun a _ => a.ofJson_toJson

lemma displayOfJson_displayJson (d : DisplayConfig) : displayOfJson (displayJson d) = d.arrived := rfl

lemma displaysOfJson (displays : List DisplayConfig) :
    (displays.map displayJson).map displayOfJson = displays.map DisplayConfig.arrived := by
  rw [List.map_map]
  exact List.map_congr_left fun d _ => displayOfJson_displayJson d

lemma ScreenConfig.ofJson_toJson (s : ScreenConfig) : ofJson s.toJson = s.arrived := by
  have hdisplays : s.toJson.field "displays" = .array (s.displays.map displayJson) := rfl
  have haliases : s.toJson.field "aliases" = .array (s.aliases.map .text) := rfl
  have hmodifiers : s.toJson.field "modifiers" = .ofVector (fun k : Fin 6 => .int k.val) s.modifiers := rfl
  have hcorners : s.toJson.field "corners" = .ofVector .bool s.corners := rfl
  have hfixes : s.toJson.field "fixes" = .ofVector .bool s.fixes := rfl
  rw [ofJson, hdisplays, haliases, hmodifiers, hcorners, hfixes, arrived, Value.toArray_array, displaysOfJson,
    Value.toArray_array, Value.map_read fun _ _ => rfl, Value.vector_ofVector fun _ => ofBounded_val _, Value.vector_ofVector fun _ => rfl,
    Value.vector_ofVector fun _ => rfl, normaliseDisplays, normaliseDisplays]
  dsimp only
  cases (s.displays.map DisplayConfig.arrived).map DisplayConfig.clamped with
  | nil => rfl
  | cons d displays => rfl

lemma LayoutOptions.ofJson_jsonFields (o : LayoutOptions) : ofJson (.object (o.jsonFields ++ rest)) = o.arrived := by
  have hcorners : (Value.object (o.jsonFields ++ rest)).field "switchCorners" = .ofVector .bool o.switchCorners := rfl
  rw [ofJson, hcorners, Value.vector_ofVector fun _ => rfl]
  rfl

end Arrived

namespace LayoutModel

variable {qt : Qt}

lemma foldl_appendNew_frame (screens : List ScreenConfig) (m : LayoutModel) :
    screens.foldl (appendNew qt) m = { m with screens := (screens.foldl (appendNew qt) m).screens } := by
  induction screens generalizing m with
  | nil => rfl
  | cons s screens ih =>
    rw [List.foldl_cons, ih, appendNew]
    split_ifs <;> rfl

lemma options_save (m : LayoutModel) : (m.save qt).options = m.options := by
  rw [save]
  split
  · rfl
  · rw [recordSetup]
    dsimp only
    split <;> rfl

def Differ (qt : Qt) (s t : ScreenConfig) : Prop := s.name ≠ [] → qt.sameName s.name t.name = false

instance (qt : Qt) (s t : ScreenConfig) : Decidable (Differ qt s t) := inferInstanceAs (Decidable (_ → _))

def Distinct (qt : Qt) (screens : List ScreenConfig) : Prop := screens.Pairwise (Differ qt)

instance (qt : Qt) (screens : List ScreenConfig) : Decidable (Distinct qt screens) := inferInstanceAs (Decidable (List.Pairwise _ _))

lemma Differ.symm {s t : ScreenConfig} (h : Differ qt s t) : Differ qt t s := by
  intro ht
  apply decide_eq_false
  intro hsame
  have hs : s.name ≠ [] := by
    rintro hs
    rw [hs, List.map_nil, List.map_eq_nil_iff] at hsame
    exact ht hsame
  exact of_decide_eq_false (h hs) hsame.symm

lemma Differ.sameName {s t : ScreenConfig} (h : Differ qt s t) (ht : t.name ≠ []) : qt.sameName s.name t.name = false := by
  apply decide_eq_false
  intro hsame
  exact of_decide_eq_false (h.symm ht) hsame.symm

lemma Distinct.map {screens : List ScreenConfig} {f : ScreenConfig → ScreenConfig} (h : Distinct qt screens)
    (hf : ∀ s, (f s).name = s.name) : Distinct qt (screens.map f) := by
  refine List.pairwise_map.mpr (h.imp fun hst => ?_)
  rw [Differ, hf, hf]
  exact hst

lemma foldl_appendNew {screens : List ScreenConfig} {m : LayoutModel} (h : Distinct qt (m.screens ++ screens)) :
    (screens.foldl (appendNew qt) m).screens = m.screens ++ screens.filter fun s => decide (s.name ≠ []) := by
  induction screens generalizing m with
  | nil => exact (List.append_nil _).symm
  | cons s screens ih =>
    rw [List.foldl_cons, appendNew]
    by_cases hname : s.name = []
    · rw [if_pos (.inl hname), List.filter_cons_of_neg (by simpa using hname)]
      apply ih
      exact h.sublist ((List.sublist_cons_self s screens).append_left m.screens)
    · have hnew : m.hasScreen qt s.name = false := by
        rw [hasScreen_eq_false hname]
        intro t ht
        exact ((List.pairwise_append.mp h).2.2 t ht s List.mem_cons_self).sameName hname
      have happend (rest : List ScreenConfig) : (m.append s).screens ++ rest = m.screens ++ s :: rest := by
        rw [append, List.append_assoc, List.singleton_append]
      rw [if_neg (by simp [hnew, hname]), List.filter_cons_of_pos (by simpa using hname), ih (happend screens ▸ h), happend]

end LayoutModel

namespace WholeLayout

variable {qt : Qt} {lower : ℕ → ℕ} {m m' : WholeLayout} {json : Value}

lemma toJson_fields (h : m.toJson lower = some json) : json.field "screens" = .array (m.screens.map ScreenConfig.toJson) ∧
    json.field "options" = m.optionsJson ∧ json.field "serverName" = .text m.serverName ∧
      json.field "hotkeyData" = if m.mirrorHotkeys = [] then .array (m.hotkeys.map Hotkey.toJson) else .null := by
  obtain ⟨hotkeyList, -, rfl⟩ := Option.map_eq_some_iff.mp h
  refine ⟨rfl, rfl, rfl, ?_⟩
  split_ifs with hmirror
  · rfl
  · rfl

end WholeLayout

end InputLeap.Gui
