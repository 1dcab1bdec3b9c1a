import InputLeap.Base.StringFormat
import InputLeap.Lib.MultiMap
import InputLeap.Server.ConfigRead

/-! How a configuration is written: the lines of each section, and of them the text of a file. -/

namespace InputLeap

open InputLeap.Lib InputLeap.Lib.Text

/-- The names of the options. `fork_getOptionName` only knows two, which are among them. -/
def optionNames : List (OptionID × String) :=
  [(kOptionHalfDuplexCapsLock, "halfDuplexCapsLock"),
   (kOptionHalfDuplexNumLock, "halfDuplexNumLock"),
   (kOptionHalfDuplexScrollLock, "halfDuplexScrollLock"),
   (kOptionModifierMapForShift, "shift"),
   (kOptionModifierMapForControl, "ctrl"),
   (kOptionModifierMapForAlt, "alt"),
   (kOptionModifierMapForAltGr, "altgr"),
   (kOptionModifierMapForMeta, "meta"),
   (kOptionModifierMapForSuper, "super"),
   (kOptionHeartbeat, "heartbeat"),
   (kOptionScreenSwitchCorners, "switchCorners"),
   (kOptionScreenSwitchCornerSize, "switchCornerSize"),
   (kOptionScreenSwitchDelay, "switchDelay"),
   (kOptionScreenSwitchTwoTap, "switchDoubleTap"),
   (kOptionScreenSwitchNeedsShift, "switchNeedsShift"),
   (kOptionScreenSwitchNeedsControl, "switchNeedsControl"),
   (kOptionScreenSwitchNeedsAlt, "switchNeedsAlt"),
   (kOptionScreenSaverSync, "screenSaverSync"),
   (kOptionXTestXineramaUnaware, "xtestIsXineramaUnaware"),
   (kOptionRelativeMouseMoves, "relativeMouseMoves"),
   (kOptionWin32KeepForeground, "win32KeepForeground"),
   (kOptionScreenPreserveFocus, "preserveFocus"),
   (kOptionClipboardSharing, "clipboardSharing"),
   (kOptionClipboardSharingSize, "clipboardSharingSize"),
   (kOptionClipboardSharing, "clipboardSharing"),
   (kOptionClipboardSharingSize, "clipboardSharingSize")]

def getOptionName (id : OptionID) : Option Name :=
  (optionNames.find? fun e => decide (e.1 = id)).map fun e => e.2.toList

def formatBoolean (value : OptionValue) : Name := if value ≠ 0 then "true".toList else "false".toList

def formatModifierKey (value : OptionValue) : Name :=
  if value = kKeyModifierIDShift then "shift".toList
  else if value = kKeyModifierIDControl then "ctrl".toList
  else if value = kKeyModifierIDAlt then "alt".toList
  else if value = kKeyModifierIDAltGr then "altgr".toList
  else if value = kKeyModifierIDMeta then "meta".toList
  else if value = kKeyModifierIDSuper then "super".toList
  else "none".toList

def cornerText (value mask : OptionValue) (name : String) : Name :=
  if value &&& mask ≠ 0 then ' ' :: '+' :: name.toList else []

def cornerRows : List (OptionValue × String) :=
  [(kTopLeftMask, "top-left"), (kTopRightMask, "top-right"), (kBottomLeftMask, "bottom-left"),
   (kBottomRightMask, "bottom-right")]

def cornersText (value : OptionValue) (rows : List (OptionValue × String)) : Name :=
  rows.flatMap fun row => cornerText value row.1 row.2

def formatCorners (value : OptionValue) : Name := "none".toList ++ cornersText value cornerRows

def OptionKind.format : OptionKind → OptionValue → Name
  | boolean => formatBoolean
  | int => fun value => formatInt value.toInt
  | modifierKey => formatModifierKey
  | corners => formatCorners

/-- The way in which `getOptionValue` prints an option; the last two are those of `fork_getOptionValue`. The size up to
which the clipboard is shared stands among the booleans here. -/
def printedAs (id : OptionID) : Option OptionKind :=
  if id ∈ [kOptionHalfDuplexCapsLock, kOptionHalfDuplexNumLock, kOptionHalfDuplexScrollLock,
      kOptionScreenSwitchNeedsShift, kOptionScreenSwitchNeedsControl, kOptionScreenSwitchNeedsAlt,
      kOptionScreenSaverSync, kOptionXTestXineramaUnaware, kOptionRelativeMouseMoves, kOptionWin32KeepForeground,
      kOptionScreenPreserveFocus, kOptionClipboardSharing, kOptionClipboardSharingSize] then some .boolean
  else if id ∈ [kOptionModifierMapForShift, kOptionModifierMapForControl, kOptionModifierMapForAlt,
      kOptionModifierMapForAltGr, kOptionModifierMapForMeta, kOptionModifierMapForSuper] then some .modifierKey
  else if id ∈ [kOptionHeartbeat, kOptionScreenSwitchCornerSize, kOptionScreenSwitchDelay,
      kOptionScreenSwitchTwoTap] then some .int
  else if id = kOptionScreenSwitchCorners then some .corners
  else if id = kOptionScreenDimmingEnabled then some .boolean
  else if id = kOptionScreenDimmingPercentage then some .int
  else none

def getOptionValue (id : OptionID) (value : OptionValue) : Name := (printedAs id).elim [] fun kind => kind.format value

def writeOption (indent : Name) (option : OptionID × OptionValue) : Option Name :=
  match getOptionName option.1 with
  | none => none
  | some name =>
    let value := getOptionValue option.1 option.2
    if value = [] then none else some (indent ++ name ++ " = ".toList ++ value)

def dirName : Direction → Name
  | .noDirection => []
  | .left => "left".toList
  | .right => "right".toList
  | .top => "up".toList
  | .bottom => "down".toList

def percent (x : ℚ) : ℤ := (x * 100 + 1 / 2).floor

def formatInterval (start stop : ℚ) : Name :=
  if start = 0 ∧ stop = 1 then []
  else '(' :: formatInt (percent start) ++ ',' :: formatInt (percent stop) ++ [')']

def writeLink (link : CellEdge × CellEdge) : Name :=
  "\t\t".toList ++ dirName link.1.side ++ formatInterval link.1.first link.1.second ++ " = ".toList ++
    link.2.name ++ formatInterval link.2.first link.2.second

def header (screen : Name) : Name := '\t' :: screen ++ [':']

namespace Config

def writeScreens (c : Config) : List Name :=
  c.map.entries.flatMap fun e =>
    header e.1 :: ((c.getOptions e.1).elim [] fun options => options.entries.filterMap (writeOption "\t\t".toList))

def writeLinks (c : Config) : List Name :=
  c.map.entries.flatMap fun e =>
    header e.1 ::
      ((c.map.find? (c.getCanonicalName e.1)).elim [] fun cell => cell.neighbors.entries.map writeLink)

def aliases (c : Config) : List (Name × Name × Name) :=
  (c.nameToCanonicalName.entries.filter fun e => decide (e.1 ≠ e.2)).foldl
    (fun aliases e => MultiMap.insert (caseless e.2) (e.2, e.1) aliases) []

/-- A header stands where the name of the screen changes, also if it is only spelled in another way. -/
def writeAliases (screen : Name) : List (Name × Name × Name) → List Name
  | [] => []
  | (_, canonical, name) :: aliases =>
    let line := "\t\t".toList ++ name
    if canonical ≠ screen then header canonical :: line :: writeAliases canonical aliases
    else line :: writeAliases screen aliases

def writeDisplay (d : DisplayRect) : Name :=
  ' ' :: formatInt d.x ++ ',' :: formatInt d.y ++ ',' :: formatInt d.w ++ ',' :: formatInt d.h

def writeDisplays (c : Config) : List Name :=
  c.displays.entries.map fun e => '\t' :: e.1 ++ " =".toList ++ e.2.flatMap writeDisplay

end Config

def sectionLines (sect : SectionName) (lines : List Name) : List Name :=
  ("section: " ++ sect.toString).toList :: lines ++ ["end".toList]

section Rules

def formatMode : LockState → Name
  | .off => "off".toList
  | .on => "on".toList
  | .toggle => "toggle".toList

/-- `string::sprintf` for a text of ASCII characters. There is no text where its length overflows. -/
def sprintf (text : Name) : Option Name :=
  (StringFormat.sprintf (text.map fun ch => UInt8.ofNat ch.toNat)).map fun output =>
    output.map fun byte => Char.ofNat byte.toNat

def formatCall (name : String) (args : Name) : Option Name := sprintf (name.toList ++ '(' :: args ++ [')'])

def formatButton (button : ButtonID) (mask : KeyModifierMask) : Name :=
  let key := KeyNames.formatKey KeyNames.kKeyNone mask
  (if key = [] then [] else key ++ ['+']) ++ formatInt button.toNat

def Condition.format : Condition → Option Name
  | keystroke key mask => formatCall "keystroke" (KeyNames.formatKey key mask)
  | mouseButton button mask => formatCall "mousebutton" (formatButton button mask)
  | screenConnected screen => formatCall "connect" screen

def Action.format : Action → Option Name
  | lockCursorToScreen mode => formatCall "lockCursorToScreen" (formatMode mode)
  | switchToScreen screen => formatCall "switchToScreen" screen
  | toggleScreen => sprintf "toggleScreen".toList
  | switchInDirection dir => formatCall "switchInDirection" (dirName dir)
  | keyboardBroadcast mode screens =>
    -- the colons around the list are left out
    formatCall "keyboardBroadcast"
      (if screens = [] ∨ screens.head? = some '*' then formatMode mode
      else formatMode mode ++ ',' :: screens.tail.dropLast)
  | keystroke key mask screens press =>
    formatCall (if press then "keyDown" else "keyUp")
      (if screens = [] then KeyNames.formatKey key mask else KeyNames.formatKey key mask ++ ',' :: screens)
  | mouseButton button mask press => formatCall (if press then "mouseDown" else "mouseUp") (formatButton button mask)

def formatActions (actions : List Action) : Option Name :=
  (actions.mapM Action.format).map fun texts => ", ".toList.intercalate texts

def Rule.format (rule : Rule) : Option Name :=
  match rule.condition with
  | none => some []
  | some condition => do
    let condition ← condition.format
    let activate ← formatActions rule.activateActions
    let deactivate ← formatActions rule.deactivateActions
    return condition ++ " = ".toList ++ activate ++
      if rule.deactivateActions = [] then [] else "; ".toList ++ deactivate

def formatRules (rules : List Rule) : Option (List Name) := rules.mapM fun rule => rule.format.map fun text => '\t' :: text

end Rules

def StoredConfig.writeOptions (file : StoredConfig) (rules : List Name) : List Name :=
  file.config.globalOptions.entries.filterMap (writeOption ['\t']) ++
    file.listenAddress.toList.map (fun host => "\taddress = ".toList ++ host) ++ rules

/-- The lines of a file, with those of its rules. There is a section for aliases or displays only if there are any. -/
def StoredConfig.lines (file : StoredConfig) (rules : List Name) : List Name :=
  let c := file.config
  sectionLines .screens c.writeScreens ++ sectionLines .links c.writeLinks ++
    (if c.map.entries.length ≠ c.nameToCanonicalName.entries.length then
      sectionLines .aliases (Config.writeAliases [] c.aliases) else []) ++
    (if c.displays.entries = [] then [] else sectionLines .displays c.writeDisplays) ++
    sectionLines .options (file.writeOptions rules)

def writeConfig (file : StoredConfig) : Option Name :=
  (formatRules file.rules).map fun rules => unlines (file.lines rules)

end InputLeap
