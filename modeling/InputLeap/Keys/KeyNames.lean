import InputLeap.Lib.Text
import InputLeap.Server.Config

/-! The names of keys and modifiers in a configuration: how a keystroke is printed and read. Names are compared
without case. -/

namespace InputLeap.KeyNames

open InputLeap.Lib.Text

def kKeyNone : BitVec 32 := 0

def kKeyAltGr : BitVec 32 := 0xEF7E

def keyModifierAltGr : BitVec 32 := 0x0020

def keyNameMap : List (String × BitVec 32) :=
  [("AltGr", 0xEF7E), ("Alt_L", 0xEFE9), ("Alt_R", 0xEFEA), ("AppMail", 0xE0B4), ("AppMedia", 0xE0B5),
   ("AppUser1", 0xE0B6), ("AppUser2", 0xE0B7), ("AudioDown", 0xE0AE), ("AudioMute", 0xE0AD),
   ("AudioNext", 0xE0B0), ("AudioPlay", 0xE0B3), ("AudioPrev", 0xE0B1), ("AudioStop", 0xE0B2),
   ("AudioUp", 0xE0AF), ("BackSpace", 0xEF08), ("Begin", 0xEF58), ("Break", 0xEF6B), ("Cancel", 0xEF69),
   ("CapsLock", 0xEFE5), ("Clear", 0xEF0B), ("Control_L", 0xEFE3), ("Control_R", 0xEFE4), ("Delete", 0xEFFF),
   ("Down", 0xEF54), ("EisuToggle", 0xEF30), ("Eject", 0xE001), ("End", 0xEF57), ("Escape", 0xEF1B),
   ("Execute", 0xEF62), ("F1", 0xEFBE), ("F2", 0xEFBF), ("F3", 0xEFC0), ("F4", 0xEFC1), ("F5", 0xEFC2),
   ("F6", 0xEFC3), ("F7", 0xEFC4), ("F8", 0xEFC5), ("F9", 0xEFC6), ("F10", 0xEFC7), ("F11", 0xEFC8),
   ("F12", 0xEFC9), ("F13", 0xEFCA), ("F14", 0xEFCB), ("F15", 0xEFCC), ("F16", 0xEFCD), ("F17", 0xEFCE),
   ("F18", 0xEFCF), ("F19", 0xEFD0), ("F20", 0xEFD1), ("F21", 0xEFD2), ("F22", 0xEFD3), ("F23", 0xEFD4),
   ("F24", 0xEFD5), ("F25", 0xEFD6), ("F26", 0xEFD7), ("F27", 0xEFD8), ("F28", 0xEFD9), ("F29", 0xEFDA),
   ("F30", 0xEFDB), ("F31", 0xEFDC), ("F32", 0xEFDD), ("F33", 0xEFDE), ("F34", 0xEFDF), ("F35", 0xEFE0),
   ("Find", 0xEF68), ("Help", 0xEF6A), ("Henkan", 0xEF23), ("Home", 0xEF50), ("Hyper_L", 0xEFED),
   ("Hyper_R", 0xEFEE), ("Insert", 0xEF63), ("Kana", 0xEF26), ("KP_0", 0xEFB0), ("KP_1", 0xEFB1),
   ("KP_2", 0xEFB2), ("KP_3", 0xEFB3), ("KP_4", 0xEFB4), ("KP_5", 0xEFB5), ("KP_6", 0xEFB6), ("KP_7", 0xEFB7),
   ("KP_8", 0xEFB8), ("KP_9", 0xEFB9), ("KP_Add", 0xEFAB), ("KP_Begin", 0xEF9D), ("KP_Decimal", 0xEFAE),
   ("KP_Delete", 0xEF9F), ("KP_Divide", 0xEFAF), ("KP_Down", 0xEF99), ("KP_End", 0xEF9C), ("KP_Enter", 0xEF8D),
   ("KP_Equal", 0xEFBD), ("KP_F1", 0xEF91), ("KP_F2", 0xEF92), ("KP_F3", 0xEF93), ("KP_F4", 0xEF94),
   ("KP_Home", 0xEF95), ("KP_Insert", 0xEF9E), ("KP_Left", 0xEF96), ("KP_Multiply", 0xEFAA),
   ("KP_PageDown", 0xEF9B), ("KP_PageUp", 0xEF9A), ("KP_Right", 0xEF98), ("KP_Separator", 0xEFAC),
   ("KP_Space", 0xEF80), ("KP_Subtract", 0xEFAD), ("KP_Tab", 0xEF89), ("KP_Up", 0xEF97), ("Left", 0xEF51),
   ("LeftTab", 0xEE20), ("Linefeed", 0xEF0A), ("Menu", 0xEF67), ("Meta_L", 0xEFE7), ("Meta_R", 0xEFE8),
   ("Muhenkan", 0xEF22), ("NumLock", 0xEF7F), ("PageDown", 0xEF56), ("PageUp", 0xEF55), ("Pause", 0xEF13),
   ("Print", 0xEF61), ("Redo", 0xEF66), ("Return", 0xEF0D), ("Right", 0xEF53), ("ScrollLock", 0xEF14),
   ("Select", 0xEF60), ("ShiftLock", 0xEFE6), ("Shift_L", 0xEFE1), ("Shift_R", 0xEFE2), ("Sleep", 0xE05F),
   ("Super_L", 0xEFEB), ("Super_R", 0xEFEC), ("SysReq", 0xEF15), ("Tab", 0xEF09), ("Undo", 0xEF65),
   ("Up", 0xEF52), ("WWWBack", 0xE0A6), ("WWWFavorites", 0xE0AB), ("WWWForward", 0xE0A7), ("WWWHome", 0xE0AC),
   ("WWWRefresh", 0xE0A8), ("WWWSearch", 0xE0AA), ("WWWStop", 0xE0A9), ("Zenkaku", 0xEF2A), ("Space", 0x0020),
   ("Exclaim", 0x0021), ("DoubleQuote", 0x0022), ("Number", 0x0023), ("Dollar", 0x0024), ("Percent", 0x0025),
   ("Ampersand", 0x0026), ("Apostrophe", 0x0027), ("ParenthesisL", 0x0028), ("ParenthesisR", 0x0029),
   ("Asterisk", 0x002A), ("Plus", 0x002B), ("Comma", 0x002C), ("Minus", 0x002D), ("Period", 0x002E),
   ("Slash", 0x002F), ("Colon", 0x003A), ("Semicolon", 0x003B), ("Less", 0x003C), ("Equal", 0x003D),
   ("Greater", 0x003E), ("Question", 0x003F), ("At", 0x0040), ("BracketL", 0x005B), ("Backslash", 0x005C),
   ("BracketR", 0x005D), ("Circumflex", 0x005E), ("Underscore", 0x005F), ("Grave", 0x0060), ("BraceL", 0x007B),
   ("Bar", 0x007C), ("BraceR", 0x007D), ("Tilde", 0x007E), ("Copy", 0x1008EF57), ("Cut", 0x1008EF58),
   ("Open", 0x1008EF6B), ("Paste", 0x1008EF6D), ("Props", 0x1005EF70), ("Front", 0x1005EF71)]

def modifierNameMap : List (String × BitVec 32) :=
  [("Alt", 0x0004), ("AltGr", keyModifierAltGr), ("Control", 0x0002), ("Meta", 0x0008), ("Shift", 0x0001),
   ("Super", 0x0010)]

section Tables

variable (table : List (String × BitVec 32))

def byName (name : Name) : Option (BitVec 32) :=
  (table.find? fun e => decide (caseless e.1.toList = caseless name)).map Prod.snd

def nameOf (id : BitVec 32) : Option Name := (table.find? fun e => decide (e.2 = id)).map fun e => e.1.toList

end Tables

def kKeyModifierNumBits : ℕ := 16

def formatModifiers (mask : BitVec 32) : List Name :=
  ((List.range kKeyModifierNumBits).filter fun i => mask.getLsbD i).filterMap fun i =>
    nameOf modifierNameMap (BitVec.twoPow 32 i)

def formatKeyName (key : BitVec 32) : Name :=
  match nameOf keyNameMap key with
  | some name => name
  | none =>
    if 33 ≤ key.toNat ∧ key.toNat < 127 then [Char.ofNat key.toNat] else '\\' :: 'u' :: formatHex 4 key.toNat

/-- The modifiers stand before the key. Without a key, no `+` stands at the end. -/
def formatKey (key mask : BitVec 32) : Name :=
  let modifiers := (formatModifiers mask).flatMap fun name => name ++ ['+']
  if key ≠ kKeyNone then modifiers ++ formatKeyName key else modifiers.dropLast

/-- Where a C string ends: at its end, or at a zero in it. -/
def cStringEnds : Name → Bool
  | [] => true
  | c :: _ => c.toNat == 0

def parseKey (x : Name) : Option (BitVec 32) :=
  match byName keyNameMap x with
  | some key => some key
  | none =>
    match x with
    | [] => some kKeyNone
    | [c] => if isGraph c then some (BitVec.ofNat 32 c.toNat) else none
    | '\\' :: 'u' :: hex =>
      if hex.length = 4 then
        let (n, rest) := strtol 16 hex
        if cStringEnds rest then some (BitVec.ofInt 32 n) else none
      else none
    | _ => none

def endsModifier (c : Char) : Bool := isBlank c || c == '+' || c == ')'

/-- Takes modifiers from the front, until something comes that is none. Each turn uses up a character, so that `fuel`
never runs out. -/
def takeModifiers : ℕ → BitVec 32 → Name → Option (BitVec 32 × Name)
  | 0, mask, _ => some (mask, [])
  | fuel + 1, mask, x =>
    let x := x.dropWhile isBlank
    if x = [] then some (mask, [])
    else
      let component := x.takeWhile fun c => !endsModifier c
      if component = [] then none
      else
        match byName modifierNameMap component with
        | none => some (mask, trim x)
        | some modifier =>
          if mask &&& modifier ≠ 0 then none
          else
            match (x.dropWhile fun c => !endsModifier c).dropWhile isBlank with
            | [] => some (mask ||| modifier, [])
            | c :: rest => if c = '+' then takeModifiers fuel (mask ||| modifier) rest else none

def parseModifiers (x : Name) : Option (BitVec 32 × Name) := takeModifiers (x.length + 1) 0 x

end InputLeap.KeyNames
