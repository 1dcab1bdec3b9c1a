import InputLeap.Server.Config
import InputLeap.Lib.Text

/-! Hotkeys as they are kept and written by the GUI. Keys are numbers of Qt; numbers below that of the space bar
are mouse buttons, and a number with a modifier's bit is that modifier. -/

namespace InputLeap.Gui

open InputLeap.Lib InputLeap.Lib.Text

abbrev QtKey := BitVec 32

namespace QtKey

def space : QtKey := 0x20
def comma : QtKey := 0x2c
def semicolon : QtKey := 0x3b
def menu : QtKey := 0x01000055
def f1 : QtKey := 0x01000030
def f35 : QtKey := 0x01000052

def shiftModifier : QtKey := 0x02000000
def controlModifier : QtKey := 0x04000000
def altModifier : QtKey := 0x08000000
def metaModifier : QtKey := 0x10000000
def keypadModifier : QtKey := 0x20000000

def leftButton : QtKey := 1
def rightButton : QtKey := 2
def middleButton : QtKey := 4

end QtKey

def keyname : List (QtKey × String) :=
  [(QtKey.space, "Space"), (0x01000000, "Escape"), (0x01000001, "Tab"), (0x01000002, "LeftTab"),
   (0x01000003, "BackSpace"), (0x01000004, "Return"), (0x01000006, "Insert"), (0x01000007, "Delete"),
   (0x01000008, "Pause"), (0x01000009, "Print"), (0x0100000a, "SysReq"), (0x01000010, "Home"), (0x01000011, "End"),
   (0x01000012, "Left"), (0x01000013, "Up"), (0x01000014, "Right"), (0x01000015, "Down"), (0x01000016, "PageUp"),
   (0x01000017, "PageDown"), (0x01000024, "CapsLock"), (0x01000025, "NumLock"), (0x01000026, "ScrollLock"),
   (QtKey.menu, "Menu"), (0x01000058, "Help"), (0x01000005, "KP_Enter"), (0x0100000b, "Clear"),
   (QtKey.comma, "Comma"), (QtKey.semicolon, "Semicolon"), (0x01000061, "WWWBack"), (0x01000062, "WWWForward"),
   (0x01000063, "WWWStop"), (0x01000064, "WWWRefresh"), (0x01000070, "AudioDown"), (0x01000071, "AudioMute"),
   (0x01000072, "AudioUp"), (0x01000080, "AudioPlay"), (0x01000081, "AudioStop"), (0x01000082, "AudioPrev"),
   (0x01000083, "AudioNext"), (0x01000090, "WWWHome"), (0x01000091, "WWWFavorites"), (0x01000092, "WWWSearch"),
   (0x01000093, "Sleep"), (0x010000a0, "AppMail"), (0x010000a1, "AppMedia"), (0x010000a2, "AppUser1"),
   (0x010000a3, "AppUser2"), (0x01010000, "Select")]

/-- `lower` is `QChar::toLower` beyond ASCII. -/
def keyToString (lower : ℕ → ℕ) (key : QtKey) : Name :=
  if key = 0 then []
  else if key.slt QtKey.space then
    if key = QtKey.leftButton then ['1']
    else if key = QtKey.rightButton then ['2']
    else if key = QtKey.middleButton then ['3']
    else ['4']
  else if key &&& QtKey.shiftModifier ≠ 0 then "Shift".toList
  else if key &&& QtKey.controlModifier ≠ 0 then "Control".toList
  else if key &&& QtKey.altModifier ≠ 0 then "Alt".toList
  else if key &&& QtKey.metaModifier ≠ 0 then "Meta".toList
  else
    let key := key &&& ~~~QtKey.keypadModifier
    match keyname.find? fun e => decide (e.1 = key) with
    | some e => e.2.toList
    | none =>
      if key.slt 0x80 then [(Char.ofNat (key &&& 0x7f).toNat).toLower]
      else if QtKey.f1.sle key ∧ key.sle QtKey.f35 then
        'F' :: formatInt (key - QtKey.f1 + 1).toInt
      else if key.slt 0x10000 then "\\u".toList ++ formatHex 4 (lower key.toNat)
      else []

structure KeySequence where
  sequence : List QtKey
  modifiers : QtKey
  isValid : Bool
  deriving DecidableEq

namespace KeySequence

def new : KeySequence := ⟨[], 0, false⟩

def isMouseButton (k : KeySequence) : Bool := k.sequence.getLast?.any fun key => key.slt QtKey.space

def toString (lower : ℕ → ℕ) (k : KeySequence) : Name :=
  ['+'].intercalate (k.sequence.map (keyToString lower))

def loaded (k : KeySequence) : KeySequence := ⟨k.sequence, 0, true⟩

end KeySequence

inductive ActionType
  | keyDown
  | keyUp
  | keystroke
  | switchToScreen
  | toggleScreen
  | switchInDirection
  | lockCursorToScreen
  | mouseDown
  | mouseUp
  | mousebutton
  deriving DecidableEq

def ActionType.toNat : ActionType → ℕ
  | keyDown => 0
  | keyUp => 1
  | keystroke => 2
  | switchToScreen => 3
  | toggleScreen => 4
  | switchInDirection => 5
  | lockCursorToScreen => 6
  | mouseDown => 7
  | mouseUp => 8
  | mousebutton => 9

def actionTypeNames : List String :=
  ["keyDown", "keyUp", "keystroke", "switchToScreen", "toggleScreen", "switchInDirection", "lockCursorToScreen",
    "mouseDown", "mouseUp", "mousebutton"]

def switchDirectionNames : List String := ["left", "right", "up", "down"]

def lockCursorModeNames : List String := ["toggle", "on", "off"]

structure KeyAction where
  keySequence : KeySequence
  type : ActionType
  typeScreenNames : List Name
  switchScreenName : Name
  switchDirection : Fin 4
  lockCursorMode : Fin 3
  activeOnRelease : Bool
  haveScreens : Bool
  deriving DecidableEq

namespace KeyAction

def new : KeyAction := ⟨.new, .keystroke, [], [], 0, 0, false, false⟩

def nameIndex (a : KeyAction) : ℕ :=
  if a.keySequence.isMouseButton then a.type.toNat + ActionType.mouseDown.toNat else a.type.toNat

def keyArgs (lower : ℕ → ℕ) (a : KeyAction) : Name :=
  a.keySequence.toString lower ++
    if a.keySequence.isMouseButton then []
    else if a.haveScreens ∧ a.typeScreenNames ≠ [] then ',' :: [':'].intercalate a.typeScreenNames
    else ",*".toList

def commandArgs (lower : ℕ → ℕ) (a : KeyAction) : Option Name :=
  match a.type with
  | .keyDown | .keyUp | .keystroke => some (a.keyArgs lower)
  | .switchToScreen => some a.switchScreenName
  | .switchInDirection => some ((switchDirectionNames.get a.switchDirection).toList)
  | .lockCursorToScreen => some ((lockCursorModeNames.get a.lockCursorMode).toList)
  | .toggleScreen | .mouseDown | .mouseUp | .mousebutton => none

/-- None if the name is read from beyond the table. -/
def text (lower : ℕ → ℕ) (a : KeyAction) : Option Name :=
  (actionTypeNames[a.nameIndex]?).map fun name =>
    name.toList ++
      match a.commandArgs lower with
      | none => []
      | some args => '(' :: args ++ [')']

end KeyAction

structure Hotkey where
  keySequence : KeySequence
  actions : List KeyAction
  deriving DecidableEq

end InputLeap.Gui
