import InputLeap.Gui.Links
import InputLeap.Server.ConfigWrite

/-! The configuration that the GUI writes for the server. -/

namespace InputLeap.Gui

open InputLeap.Lib InputLeap.Lib.Text

def modifierNames : List String := ["shift", "ctrl", "alt", "meta", "super", "none"]

def fixNames : List String :=
  ["halfDuplexCapsLock", "halfDuplexNumLock", "halfDuplexScrollLock", "xtestIsXineramaUnaware", "preserveFocus"]

def cornerNames : List String := ["top-left", "top-right", "bottom-left", "bottom-right"]

def sideName : Side → Name
  | .left => "left".toList
  | .right => "right".toList
  | .up => "up".toList
  | .down => "down".toList

def digit (n : ℤ) : Char := Char.ofNat (48 + n.toNat % 10)

def percentText (n : ℤ) : Name :=
  let text := (formatInt (n / 100) ++ ['.', digit (n / 10 % 10), digit (n % 10)]).rdropWhile (· == '0')
  if text.getLast? = some '.' then text.dropLast else text

def rangeText (start stop : ℤ) : Name :=
  if start ≠ 0 ∨ stop ≠ 10000 then '(' :: percentText start ++ ',' :: percentText stop ++ [')'] else []

def boolText (on : Bool) : Name := (if on then "true" else "false").toList

def optionText (indent : Name) (name : String) (value : Name) : Name := indent ++ name.toList ++ " = ".toList ++ value

def cornersText (corners : Fin 4 → Bool) : Name :=
  "none ".toList ++ (List.finRange 4).flatMap fun i =>
    if corners i then '+' :: (cornerNames.get i).toList ++ [' '] else []

def ScreenConfig.screenLines (s : ScreenConfig) : List Name :=
  header s.name ::
    (((List.finRange 5).filter fun i => decide (s.modifiers i ≠ i.castSucc)).map fun i =>
      optionText "\t\t".toList (modifierNames.get i.castSucc) (modifierNames.get (s.modifiers i)).toList) ++
    ((List.finRange 5).map fun i => optionText "\t\t".toList (fixNames.get i) (boolText (s.fixes i))) ++
    [optionText "\t\t".toList "switchCorners" (cornersText s.corners),
      optionText "\t\t".toList "switchCornerSize" (formatInt s.cornerSize)]

def ScreenConfig.aliasLines (s : ScreenConfig) : List Name :=
  if s.aliases = [] then [] else header s.name :: s.aliases.map ("\t\t".toList ++ ·)

def displayText (d : DisplayConfig) : Name :=
  ' ' :: formatInt d.x ++ ',' :: formatInt d.y ++ ',' :: formatInt d.width ++ ',' :: formatInt d.height

def ScreenConfig.displaysLine (s : ScreenConfig) : Name := '\t' :: s.name ++ " =".toList ++ s.displays.flatMap displayText

def LayoutOptions.lines (o : LayoutOptions) : List Name :=
  (if o.hasHeartbeat then [optionText ['\t'] "heartbeat" (formatInt o.heartbeat)] else []) ++
    [optionText ['\t'] "relativeMouseMoves" (boolText o.relativeMouseMoves),
      optionText ['\t'] "screenSaverSync" (boolText o.screenSaverSync),
      optionText ['\t'] "win32KeepForeground" (boolText o.win32KeepForeground),
      optionText ['\t'] "clipboardSharing" (boolText o.clipboardSharing),
      optionText ['\t'] "clipboardSharingSize" (formatInt o.clipboardSharingSize)] ++
    (if o.hasSwitchDelay then [optionText ['\t'] "switchDelay" (formatInt o.switchDelay)] else []) ++
    (if o.hasSwitchDoubleTap then [optionText ['\t'] "switchDoubleTap" (formatInt o.switchDoubleTap)] else []) ++
    [optionText ['\t'] "switchCorners" (cornersText o.switchCorners),
      optionText ['\t'] "switchCornerSize" (formatInt o.switchCornerSize),
      optionText ['\t'] "screenDimmingEnabled" (boolText o.dimmingEnabled),
      optionText ['\t'] "screenDimmingPercentage" (formatInt o.dimmingPercentage)]

section Hotkeys

variable (lower : ℕ → ℕ)

def Hotkey.text (h : Hotkey) : Name :=
  (if h.keySequence.isMouseButton then "mousebutton(" else "keystroke(").toList ++ h.keySequence.toString lower ++ [')']

def KeyAction.written (a : KeyAction) : Option Name :=
  (a.text lower).map fun text => (if a.activeOnRelease then [';'] else []) ++ text

def Hotkey.line (h : Hotkey) : Option (List Name) :=
  if h.actions = [] then some []
  else (h.actions.mapM (KeyAction.written lower)).map fun texts =>
    ['\t' :: h.text lower ++ " = ".toList ++ ", ".toList.intercalate texts]

end Hotkeys

namespace LayoutModel

variable (m : LayoutModel)

def linkText (link : ScreenLink) : Name :=
  "\t\t".toList ++ sideName link.side ++ rangeText link.fromStart link.fromEnd ++ " = ".toList ++
    ((m.screens[link.target]?).elim [] ScreenConfig.name) ++ rangeText link.toStart link.toEnd

def linkLines : List Name :=
  m.screens.zipIdx.flatMap fun (s, i) =>
    header s.name :: (m.links.filter fun link => decide (link.source = i)).map m.linkText

def displaysLines : List Name :=
  (m.screens.filter fun s => decide (2 ≤ s.displays.length)).map ScreenConfig.displaysLine

def sectionText (sect : SectionName) (lines : List Name) : List Name := sectionLines sect lines ++ [[]]

def configLines (lower : ℕ → ℕ) : Option (List Name) :=
  (m.hotkeys.mapM (Hotkey.line lower)).map fun hotkeys =>
    sectionText .screens (m.screens.flatMap ScreenConfig.screenLines) ++
      sectionText .aliases (m.screens.flatMap ScreenConfig.aliasLines) ++
      sectionText .links m.linkLines ++
      (if m.displaysLines = [] then [] else sectionText .displays m.displaysLines) ++
      sectionText .options (m.options.lines ++ hotkeys.flatten)

def configText (lower : ℕ → ℕ) : Option Name := (m.configLines lower).map unlines

end LayoutModel

end InputLeap.Gui
