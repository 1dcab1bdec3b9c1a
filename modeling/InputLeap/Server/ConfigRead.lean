import InputLeap.Keys.KeyNames
import InputLeap.Lib.Reachable
import InputLeap.Server.InputFilter

/-! How a configuration is read from a file, line by line. A line is first stripped of comments and blanks; then it is
up to the section that it stands in. -/

namespace InputLeap

open InputLeap.Lib InputLeap.Lib.Text

section Options

def kOptionHalfDuplexCapsLock : OptionID := optionCode "HDCL"
def kOptionHalfDuplexNumLock : OptionID := optionCode "HDNL"
def kOptionHalfDuplexScrollLock : OptionID := optionCode "HDSL"
def kOptionModifierMapForShift : OptionID := optionCode "MMFS"
def kOptionModifierMapForControl : OptionID := optionCode "MMFC"
def kOptionModifierMapForAlt : OptionID := optionCode "MMFA"
def kOptionModifierMapForAltGr : OptionID := optionCode "MMFG"
def kOptionModifierMapForMeta : OptionID := optionCode "MMFM"
def kOptionModifierMapForSuper : OptionID := optionCode "MMFR"
def kOptionHeartbeat : OptionID := optionCode "HART"
def kOptionScreenSaverSync : OptionID := optionCode "SSVR"
def kOptionXTestXineramaUnaware : OptionID := optionCode "XTXU"
def kOptionScreenPreserveFocus : OptionID := optionCode "SFOC"
def kOptionWin32KeepForeground : OptionID := optionCode "_KFW"
def kOptionScreenDimmingPercentage : OptionID := optionCode "DMPC"

def kKeyModifierIDNull : OptionValue := 0
def kKeyModifierIDShift : OptionValue := 1
def kKeyModifierIDControl : OptionValue := 2
def kKeyModifierIDAlt : OptionValue := 3
def kKeyModifierIDMeta : OptionValue := 4
def kKeyModifierIDSuper : OptionValue := 5
def kKeyModifierIDAltGr : OptionValue := 6

def kNoCornerMask : OptionValue := 0
def kAllCornersMask : OptionValue := kTopLeftMask ||| kTopRightMask ||| kBottomLeftMask ||| kBottomRightMask

end Options

def quoted (text : String) (arg : Name) : String := text ++ " \"" ++ String.ofList arg ++ "\""

def parseWord (words : List (String × OptionValue)) (error : String) (arg : Name) : Except String OptionValue :=
  match words.find? fun e => decide (caseless e.1.toList = caseless arg) with
  | some e => .ok e.2
  | none => .error (quoted error arg)

def parseBoolean : Name → Except String OptionValue :=
  parseWord [("true", 1), ("false", 0)] "invalid boolean argument"

def parseInt (arg : Name) : Except String OptionValue :=
  let (n, rest) := strtol 10 arg
  if rest ≠ [] then .error (quoted "invalid integer argument" arg)
  else if (BitVec.ofInt 32 n).toInt ≠ n then .error (quoted "integer argument" arg ++ " out of range")
  else .ok (BitVec.ofInt 32 n)

def parseModifierKey : Name → Except String OptionValue :=
  parseWord [("shift", kKeyModifierIDShift), ("ctrl", kKeyModifierIDControl), ("alt", kKeyModifierIDAlt),
    ("altgr", kKeyModifierIDAltGr), ("meta", kKeyModifierIDMeta), ("super", kKeyModifierIDSuper),
    ("none", kKeyModifierIDNull)] "invalid argument"

def cornerWords : List (String × OptionValue) :=
  [("left", kTopLeftMask ||| kBottomLeftMask), ("right", kTopRightMask ||| kBottomRightMask),
    ("top", kTopLeftMask ||| kTopRightMask), ("bottom", kBottomLeftMask ||| kBottomRightMask),
    ("top-left", kTopLeftMask), ("top-right", kTopRightMask), ("bottom-left", kBottomLeftMask),
    ("bottom-right", kBottomRightMask), ("none", kNoCornerMask), ("all", kAllCornersMask)]

def parseCorner : Name → Except String OptionValue := parseWord cornerWords "invalid argument"

/-- The corners that are added and taken away behind the first. Each turn uses up a character. -/
def changeCorners : ℕ → OptionValue → Name → Except String OptionValue
  | 0, corners, _ => .ok corners
  | fuel + 1, corners, args =>
    match args.dropWhile isBlank with
    | [] => .ok corners
    | op :: args =>
      if op ≠ '-' ∧ op ≠ '+' then .error (quoted "invalid corner operator" [op])
      else
        let args := args.dropWhile isBlank
        if args = [] then .error "missing corner argument"
        else do
          let corner ← parseCorner (args.takeWhile fun c => !isBlank c)
          let corners := if op = '+' then corners ||| corner else corners &&& ~~~corner
          changeCorners fuel corners (args.dropWhile fun c => !isBlank c)

def parseCorners (args : Name) : Except String OptionValue :=
  let args := args.dropWhile isBlank
  if args = [] then .error "missing corner argument"
  else do
    let corners ← parseCorner (args.takeWhile fun c => !isBlank c)
    changeCorners args.length corners (args.dropWhile fun c => !isBlank c)

inductive OptionKind
  | boolean
  | int
  | modifierKey
  | corners
  deriving DecidableEq

def OptionKind.parse : OptionKind → Name → Except String OptionValue
  | boolean => parseBoolean
  | int => parseInt
  | modifierKey => parseModifierKey
  | corners => parseCorners

/-- The options of the `screens` section, with the way in which each is read. -/
def screenOptions : List (String × OptionID × OptionKind) :=
  [("halfDuplexCapsLock", kOptionHalfDuplexCapsLock, .boolean),
   ("halfDuplexNumLock", kOptionHalfDuplexNumLock, .boolean),
   ("halfDuplexScrollLock", kOptionHalfDuplexScrollLock, .boolean),
   ("shift", kOptionModifierMapForShift, .modifierKey),
   ("ctrl", kOptionModifierMapForControl, .modifierKey),
   ("alt", kOptionModifierMapForAlt, .modifierKey),
   ("altgr", kOptionModifierMapForAltGr, .modifierKey),
   ("meta", kOptionModifierMapForMeta, .modifierKey),
   ("super", kOptionModifierMapForSuper, .modifierKey),
   ("xtestIsXineramaUnaware", kOptionXTestXineramaUnaware, .boolean),
   ("switchCorners", kOptionScreenSwitchCorners, .corners),
   ("switchCornerSize", kOptionScreenSwitchCornerSize, .int),
   ("preserveFocus", kOptionScreenPreserveFocus, .boolean)]

/-- The options of the `options` section. The last two are those of `fork_readSectionOptions`. -/
def globalOptions : List (String × OptionID × OptionKind) :=
  [("heartbeat", kOptionHeartbeat, .int),
   ("switchCorners", kOptionScreenSwitchCorners, .corners),
   ("switchCornerSize", kOptionScreenSwitchCornerSize, .int),
   ("switchDelay", kOptionScreenSwitchDelay, .int),
   ("switchDoubleTap", kOptionScreenSwitchTwoTap, .int),
   ("switchNeedsShift", kOptionScreenSwitchNeedsShift, .boolean),
   ("switchNeedsControl", kOptionScreenSwitchNeedsControl, .boolean),
   ("switchNeedsAlt", kOptionScreenSwitchNeedsAlt, .boolean),
   ("screenSaverSync", kOptionScreenSaverSync, .boolean),
   ("relativeMouseMoves", kOptionRelativeMouseMoves, .boolean),
   ("win32KeepForeground", kOptionWin32KeepForeground, .boolean),
   ("clipboardSharing", kOptionClipboardSharing, .boolean),
   ("clipboardSharingSize", kOptionClipboardSharingSize, .int),
   ("screenDimmingEnabled", kOptionScreenDimmingEnabled, .boolean),
   ("screenDimmingPercentage", kOptionScreenDimmingPercentage, .int)]

def optionNamed (table : List (String × OptionID × OptionKind)) (name : Name) : Option (OptionID × OptionKind) :=
  (table.find? fun e => decide (e.1.toList = name)).map Prod.snd

def concatArgs (args : List Name) : Name := '(' :: [','].intercalate args ++ [')']

def parseInterval : List Name → Except String (ℚ × ℚ)
  | [] => .ok (0, 1)
  | args =>
    let invalid : Except String (ℚ × ℚ) := .error (quoted "invalid interval" (concatArgs args))
    match args with
    | [start, stop] =>
      let (startValue, startRest) := strtod start
      let (endValue, endRest) := strtod stop
      if start = [] ∨ stop = [] ∨ startRest ≠ [] ∨ endRest ≠ [] then invalid
      else if startValue < 0 ∨ startValue > 100 ∨ endValue < 0 ∨ endValue > 100 ∨ startValue ≥ endValue then invalid
      else .ok (startValue / 100, endValue / 100)
    | _ => invalid

/-- The arguments up to the closing bracket, and what follows it. A bracket behind an empty argument is not found: the
position of the bracket is overwritten with that of the end of the argument, which has none. -/
def takeArgs (arg : Name) : Name → Option (List Name × Name)
  | [] => none
  | c :: s =>
    if c = ')' then if arg.all isBlank then none else some ([trim arg], s)
    else if c = ',' then (takeArgs [] s).map fun (args, rest) => (trim arg :: args, rest)
    else takeArgs (arg ++ [c]) s

def needDelim (delim : List Char) : Bool := decide (delim ≠ [] ∧ '\n' ∉ delim)

def inName (delim : List Char) (c : Char) : Bool := !(isBlank c || c == '(' || delim.contains c)

def missingDelim (delim : List Char) : String := "missing " ++ String.ofList (delim.take 1)

def checkDelim (delim : List Char) (name : Name) (args : List Name) (s : Name) :
    Except String (Name × List Name × Name) :=
  if needDelim delim ∧ s = [] then .error (missingDelim delim)
  else if needDelim delim ∧ ∀ c ∈ s.head?, c ∉ delim then .error ("expected " ++ String.ofList (delim.take 1))
  else .ok (name, args, s)

/-- From the end of a name on: arguments, if a bracket follows. Without any, the delimiter may be any character. -/
def parseArgs (delim : List Char) (name : Name) : Name → Except String (Name × List Name × Name)
  | [] => if needDelim delim then .error (missingDelim delim) else .ok (name, [], [])
  | c :: s =>
    if c ≠ '(' then .ok (name, [], c :: s)
    else
      match takeArgs [] s with
      | none => .error "missing )"
      | some (args, s) => checkDelim delim name args (s.dropWhile isBlank)

def parseNameWithArgs (type : String) (delim : List Char) (line : Name) : Except String (Name × List Name × Name) :=
  let s := line.dropWhile isBlank
  if s = [] then .error ("missing " ++ type)
  else parseArgs delim (s.takeWhile (inName delim)) ((s.dropWhile (inName delim)).dropWhile isBlank)

def parseKeystroke (keystroke : Name) : Except String (KeyID × KeyModifierMask) :=
  match KeyNames.parseModifiers keystroke with
  | none => .error "unable to parse key modifiers"
  | some (mask, s) =>
    match KeyNames.parseKey s with
    | none => .error "unable to parse key"
    | some key =>
      if key = KeyNames.kKeyNone ∧ mask = 0 then .error "missing key and/or modifiers in keystroke" else .ok (key, mask)

def parseMouse (mouse : Name) : Except String (ButtonID × KeyModifierMask) :=
  match KeyNames.parseModifiers mouse with
  | none => .error "unable to parse button modifiers"
  | some (mask, s) =>
    let (n, rest) := strtol 10 s
    let button : ButtonID := BitVec.ofInt 8 n
    if rest ≠ [] then .error "unable to parse button"
    else if s = [] ∨ button = 0 then .error "invalid button"
    else .ok (button, mask)

/-- A set of screens, in the order of `std::set`. -/
abbrev ScreenSet := OrdMap (id : Name → Name) Unit

namespace ScreenSet

/-- Names are put between colons; `*` stands for all screens. -/
def joinNames : Name → List Name → Name
  | screens, [] => screens
  | screens, name :: names =>
    if name = ['*'] then ['*'] else joinNames ((if screens = [] then [':'] else screens) ++ name ++ [':']) names

def join (screens : ScreenSet) : Name := joinNames [] (screens.entries.map Prod.fst)

end ScreenSet

namespace Config

def addNamed (c : Config) (screens : ScreenSet) (part : Name) : Except String ScreenSet :=
  let rawName := (part.dropWhile isBlank).rdropWhile isBlank
  if rawName = ['*'] then .ok (screens.insert ['*'] ())
  else if rawName = [] then .ok screens
  else if c.getCanonicalName rawName = [] then .error (quoted "unknown screen name" rawName)
  else .ok (screens.insert (c.getCanonicalName rawName) ())

def parseScreens (c : Config) (part : Name) (screens : ScreenSet) : Name → Except String ScreenSet
  | [] => c.addNamed screens part
  | ch :: s =>
    if ch = ':' then do
      let screens ← c.addNamed screens part
      parseScreens c [] screens s
    else parseScreens c (part ++ [ch]) screens s

def screenArg (c : Config) (error : Name → String) (screen : Name) : Except String Name :=
  if c.isScreen screen then .ok (c.getCanonicalName screen)
  else if screen ≠ [] then .error (error screen)
  else .ok screen

def parseCondition (c : Config) (name : Name) (args : List Name) : Except String Condition :=
  if name = "keystroke".toList then
    match args with
    | [arg] => do
      let (key, mask) ← parseKeystroke arg
      return .keystroke key mask
    | _ => .error "syntax for condition: keystroke(modifiers+key)"
  else if name = "mousebutton".toList then
    match args with
    | [arg] => do
      let (button, mask) ← parseMouse arg
      return .mouseButton button mask
    | _ => .error "syntax for condition: mousebutton(modifiers+button)"
  else if name = "connect".toList then
    match args with
    | [arg] => do
      let screen ← c.screenArg (fun screen => quoted "unknown screen name" screen ++ " in connect") arg
      return .screenConnected screen
    | _ => .error "syntax for condition: connect([screen])"
  else .error (quoted "unknown argument" name)

def parseDirection (arg : Name) : Option Direction :=
  if arg = "left".toList then some .left
  else if arg = "right".toList then some .right
  else if arg = "up".toList then some .top
  else if arg = "down".toList then some .bottom
  else none

def parseMode (arg : Name) : Option LockState :=
  if arg = "off".toList then some .off
  else if arg = "on".toList then some .on
  else if arg = "toggle".toList then some .toggle
  else none

def keystrokeArgs (c : Config) : List Name → Except String (KeyID × KeyModifierMask × Name)
  | [arg] => do
    let (key, mask) ← parseKeystroke arg
    return (key, mask, [])
  | [arg, screens] => do
    let screens ← c.parseScreens [] .empty screens
    let (key, mask) ← parseKeystroke arg
    return (key, mask, screens.join)
  | _ => .error "syntax for action: keystroke(modifiers+key[,screens])"

def mouseArgs : List Name → Except String (ButtonID × KeyModifierMask)
  | [arg] => parseMouse arg
  | _ => .error "syntax for action: mousebutton(modifiers+button)"

def lockArgs (args : List Name) : Except String LockState :=
  let mode : Option LockState :=
    match args with
    | [] => some .toggle
    | [arg] => parseMode arg
    | _ => none
  match mode with
  | some mode => .ok mode
  | none => .error "syntax for action: lockCursorToScreen([\x7boff|on|toggle\x7d])"

def broadcastArgs (c : Config) (args : List Name) : Except String (LockState × Name) :=
  let mode : Option LockState :=
    match args with
    | [] => some .toggle
    | [arg] => parseMode arg
    | [arg, _] => parseMode arg
    | _ => none
  match mode with
  | none => .error "syntax for action: keyboardBroadcast([\x7boff|on|toggle\x7d[,screens]])"
  | some mode =>
    match args with
    | [_, screens] => do
      let screens ← c.parseScreens [] .empty screens
      return (mode, screens.join)
    | _ => .ok (mode, ScreenSet.join .empty)

/-- An action is adopted. The actions `keystroke` and `mousebutton` stand for two, of which the second is always done
on deactivation. -/
def parseAction (c : Config) (rule : Rule) (activate : Bool) (name : Name) (args : List Name) : Except String Rule :=
  if name = "keystroke".toList then do
    let (key, mask, screens) ← c.keystrokeArgs args
    return (rule.adoptAction (.keystroke key mask screens true) true).adoptAction (.keystroke key mask screens false) false
  else if name = "keyDown".toList then do
    let (key, mask, screens) ← c.keystrokeArgs args
    return rule.adoptAction (.keystroke key mask screens true) activate
  else if name = "keyUp".toList then do
    let (key, mask, screens) ← c.keystrokeArgs args
    return rule.adoptAction (.keystroke key mask screens false) activate
  else if name = "mousebutton".toList then do
    let (button, mask) ← mouseArgs args
    return (rule.adoptAction (.mouseButton button mask true) true).adoptAction (.mouseButton button mask false) false
  else if name = "mouseDown".toList then do
    let (button, mask) ← mouseArgs args
    return rule.adoptAction (.mouseButton button mask true) activate
  else if name = "mouseUp".toList then do
    let (button, mask) ← mouseArgs args
    return rule.adoptAction (.mouseButton button mask false) activate
  else if name = "switchToScreen".toList then
    match args with
    | [arg] => do
      let screen ← c.screenArg (fun _ => "unknown screen name in switchToScreen") arg
      return rule.adoptAction (.switchToScreen screen) activate
    | _ => .error "syntax for action: switchToScreen(name)"
  else if name = "toggleScreen".toList then .ok (rule.adoptAction .toggleScreen activate)
  else if name = "switchInDirection".toList then
    match args with
    | [arg] =>
      match parseDirection arg with
      | some direction => .ok (rule.adoptAction (.switchInDirection direction) activate)
      | none => .error (quoted "unknown direction" arg ++ " in switchToScreen")
    | _ => .error "syntax for action: switchInDirection(<left|right|up|down>)"
  else if name = "lockCursorToScreen".toList then do
    let mode ← lockArgs args
    return rule.adoptAction (.lockCursorToScreen mode) activate
  else if name = "keyboardBroadcast".toList then do
    let (mode, screens) ← c.broadcastArgs args
    return rule.adoptAction (.keyboardBroadcast mode screens) activate
  else .error (quoted "unknown action argument" name)

/-- The actions on activation behind the first, up to a semicolon. Each turn uses up a character. -/
def activateActions (c : Config) : ℕ → Rule → Name → Except String (Rule × Name)
  | 0, rule, rest => .ok (rule, rest)
  | fuel + 1, rule, rest =>
    match rest with
    | [] => .ok (rule, [])
    | ch :: s =>
      if ch = ';' then .ok (rule, rest)
      else do
        let (value, args, rest) ← parseNameWithArgs "value" [',', ';', '\n'] s
        let rule ← c.parseAction rule true value args
        activateActions c fuel rule rest

def deactivateActions (c : Config) : ℕ → Rule → Name → Except String Rule
  | 0, rule, _ => .ok rule
  | fuel + 1, rule, s => do
    let (value, args, rest) ← parseNameWithArgs "value" [',', '\n'] s
    let rule ← c.parseAction rule false value args
    match rest with
    | [] => .ok rule
    | _ :: s => deactivateActions c fuel rule s

/-- A rule, from its first value on. A semicolon at the end is allowed. -/
def parseRule (c : Config) (name : Name) (nameArgs : List Name) (value : Name) (valueArgs : List Name) (rest : Name) :
    Except String Rule := do
  let condition ← c.parseCondition name nameArgs
  let rule := Rule.new condition
  let rule ← if value ≠ [] ∨ rest.head? ≠ some ';' then c.parseAction rule true value valueArgs else pure rule
  let (rule, rest) ← c.activateActions rest.length rule rest
  match rest.tail.dropWhile isBlank with
  | [] => return rule
  | s => c.deactivateActions (s.length + 1) rule s

end Config

namespace NetworkAddress

/-- Host and port of an address. The host may stand in brackets; it is all of the address if there is no colon or more
than one. -/
def parseAddress (address : Name) (port : ℤ) : Option (Name × ℤ) :=
  let portOf (digits : Name) : ℤ := (BitVec.ofInt 32 (strtol 10 digits).1).toInt
  match address with
  | '[' :: s =>
    let host := s.takeWhile fun c => c != ']'
    match s.dropWhile fun c => c != ']' with
    | [] => none
    | [_] => some (host, port)
    | _ :: c :: digits => if c = ':' then some (host, portOf digits) else none
  | _ =>
    match address.dropWhile fun c => c != ':' with
    | [] => some (address, port)
    | _ :: digits =>
      if digits.contains ':' then some (address, port) else some (address.takeWhile fun c => c != ':', portOf digits)

def kDefaultPort : ℤ := 24800

/-- The host of an address that can be listened on. An empty host stands for any address; others are looked up. -/
def listenHost (resolves : Name → Bool) (address : Name) : Option Name :=
  (parseAddress address kDefaultPort).bind fun (host, port) =>
    if 0 < port ∧ port ≤ 65535 ∧ (host = [] ∨ resolves host) then some host else none

end NetworkAddress

inductive SectionName
  | options
  | screens
  | links
  | aliases
  | displays
  deriving DecidableEq

def SectionName.toString : SectionName → String
  | options => "options"
  | screens => "screens"
  | links => "links"
  | aliases => "aliases"
  | displays => "displays"

def sectionNamed (name : Name) : Option SectionName :=
  [SectionName.options, .screens, .links, .aliases, .displays].find? fun sect => decide (sect.toString.toList = name)

structure StoredConfig extends ConfigFile where
  listenAddress : Option Name

structure Reading extends StoredConfig where
  inside : Option SectionName
  screen : Name

namespace Reading

def start : Reading := ⟨⟨⟨.empty, []⟩, none⟩, none, []⟩

def setConfig (s : Reading) (c : Config) : Reading := { s with config := c }

def addOption (s : Reading) (name : Name) (option : OptionID) (value : OptionValue) : Reading :=
  s.setConfig ((s.config.addOption name option value).getD s.config)

def readSection (s : Reading) (line : Name) : Except String Reading :=
  let name := (line.drop 8).dropWhile isBlank
  if "section:".toList.isPrefixOf line = false then .error "found data outside section"
  else if name = [] then .error "section name is missing"
  else if name.any isBlank then .error "unexpected data after section name"
  else
    match sectionNamed name with
    | none => .error (quoted "unknown section name" name)
    | some sect => .ok { s with inside := some sect, screen := [] }

/-- An option of the server, or the address that it listens on. Anything else is none. -/
def handleOption (resolves : Name → Bool) (s : Reading) (name value : Name) : Except String (Option Reading) :=
  if name = "address".toList then
    match NetworkAddress.listenHost resolves value with
    | some host => .ok (some { s with listenAddress := some host })
    | none => .error "invalid address argument "
  else
    match optionNamed globalOptions name with
    | some (option, kind) => do
      let value ← kind.parse value
      return some (s.addOption [] option value)
    | none => .ok none

/-- A line of the `options` section: an option, or a rule that filters the input. -/
def readOptionLine (resolves : Name → Bool) (s : Reading) (line : Name) : Except String Reading := do
  let (name, nameArgs, rest) ← parseNameWithArgs "name" ['='] line
  let (value, valueArgs, rest) ← parseNameWithArgs "value" [',', ';', '\n'] rest.tail
  let handled ← s.handleOption resolves name value
  match handled with
  | some s => if rest.head? = some ',' ∨ rest.head? = some ';' then .error "to many arguments to %s" else .ok s
  | none => do
    let rule ← s.config.parseRule name nameArgs value valueArgs rest
    return { s with rules := s.rules ++ [rule] }

def validPart (part : Name) : Bool :=
  let atEnd (c : Char) : Bool := c.isAlphanum || c == '_'
  part.head?.any atEnd && part.getLast?.any atEnd && part.all fun c => atEnd c || c == '-'

/-- Parts between dots, the last of which may be empty. -/
def validParts (part : Name) : Name → Bool
  | [] => part = [] || validPart part
  | c :: s => if c = '.' then validPart part && validParts [] s else validParts (part ++ [c]) s

def isValidScreenName (name : Name) : Bool := name ≠ [] && validParts [] name

def splitArgument (line : Name) : Except String (Name × Name) :=
  let inName (c : Char) : Bool := !(isBlank c || c == '=')
  let name := line.takeWhile inName
  if name = [] then .error "missing argument name"
  else
    match (line.dropWhile inName).dropWhile isBlank with
    | '=' :: rest => .ok (name, rest.dropWhile isBlank)
    | _ => .error "missing ="

def readScreenHeader (s : Reading) (screen : Name) : Except String Reading :=
  if isValidScreenName screen = false then .error (quoted "invalid screen name" screen)
  else
    match s.config.addScreen screen with
    | none => .error (quoted "duplicate screen name" screen)
    | some c => .ok { s.setConfig c with screen := screen }

def readScreenLine (s : Reading) (line : Name) : Except String Reading :=
  if line.getLast? = some ':' then s.readScreenHeader line.dropLast
  else if s.screen = [] then .error "argument before first screen"
  else do
    let (name, value) ← splitArgument line
    match optionNamed screenOptions name with
    | none => .error (quoted "unknown argument" name)
    | some (option, kind) => do
      let value ← kind.parse value
      return s.addOption s.screen option value

/-- The header of the links or aliases of a screen, which must not be an alias itself. -/
def readHeader (s : Reading) (line : Name) : Except String Reading :=
  let screen := line.dropLast
  if s.config.isScreen screen = false then .error (quoted "unknown screen name" screen)
  else if s.config.isCanonicalName screen = false then .error "cannot use screen name alias here"
  else .ok { s with screen := screen }

def readLinkLine (s : Reading) (line : Name) : Except String Reading :=
  if line.getLast? = some ':' then s.readHeader line
  else if s.screen = [] then .error "argument before first screen"
  else do
    let (side, srcArgs, rest) ← parseNameWithArgs "link" ['='] line
    let (dstScreen, dstArgs, _) ← parseNameWithArgs "screen" [] rest.tail
    let (srcStart, srcEnd) ← parseInterval srcArgs
    let (dstStart, dstEnd) ← parseInterval dstArgs
    match Config.parseDirection side with
    | none => .error (quoted "unknown side" side ++ " in link")
    | some dir =>
      if s.config.isScreen dstScreen = false then .error (quoted "unknown screen name" dstScreen)
      else
        match s.config.connect s.screen dir srcStart srcEnd dstScreen dstStart dstEnd with
        | none => .error "overlapping range"
        | some c => .ok (s.setConfig c)

def readAliasLine (s : Reading) (line : Name) : Except String Reading :=
  if line.getLast? = some ':' then s.readHeader line
  else if s.screen = [] then .error "argument before first screen"
  else if isValidScreenName line = false then .error (quoted "invalid screen alias" line)
  else
    match s.config.addAlias s.screen line with
    | none => .error (quoted "alias" line ++ " is already used")
    | some c => .ok (s.setConfig c)

/-- Integers as they are extracted from a stream, until that fails, and whether it is at its end then. -/
def extractInts : ℕ → Name → List ℤ × Bool
  | 0, _ => ([], true)
  | fuel + 1, numbers =>
    let numbers := numbers.dropWhile isSpace
    if numbers = [] then ([], true)
    else
      let (negative, s) := takeSign numbers
      let digits := s.takeWhile isDigit
      let rest := s.dropWhile isDigit
      let value := signed negative (digitsValue 10 digits)
      if digits = [] ∨ (BitVec.ofInt 32 value).toInt ≠ value then ([], decide (rest = []))
      else
        let (values, eof) := extractInts fuel rest
        (value :: values, eof)

def displayRects : List ℤ → List DisplayRect
  | x :: y :: w :: h :: values => ⟨x, y, w, h⟩ :: displayRects values
  | _ => []

def readDisplaysLine (s : Reading) (line : Name) : Except String Reading :=
  match line.dropWhile fun c => c != '=' with
  | [] => .error "expected `name = x,y,w,h ...`"
  | _ :: numbers =>
    let name := (line.takeWhile fun c => c != '=').rdropWhile isBlank
    let canonical := s.config.getCanonicalName name
    if canonical = [] then .error (quoted "unknown screen name" name)
    else
      let numbers := numbers.map fun c => if c = ',' then ' ' else c
      let (values, eof) := extractInts (numbers.length + 1) numbers
      if eof = false ∨ values = [] ∨ values.length % 4 ≠ 0 ∨ values.length > 4 * 32 then
        .error (quoted "displays of" name ++ " are not x,y,w,h groups")
      else if (displayRects values).any fun d => decide (d.w ≤ 0 ∨ d.h ≤ 0) then
        .error (quoted "a display of" name ++ " has no size")
      else
        .ok (s.setConfig { s.config with
          displays := (s.config.displays.erase canonical).insert canonical (displayRects values) })

def readContent (resolves : Name → Bool) (s : Reading) (line : Name) : SectionName → Except String Reading
  | .options => s.readOptionLine resolves line
  | .screens => s.readScreenLine line
  | .links => s.readLinkLine line
  | .aliases => s.readAliasLine line
  | .displays => s.readDisplaysLine line

def readSectionLine (resolves : Name → Bool) (s : Reading) (sect : SectionName) (line : Name) : Except String Reading :=
  if line = "end".toList then .ok { s with inside := none } else s.readContent resolves line sect

end Reading

def isLineEnd (c : Char) : Bool := isBlank c || c == '\r'

def stripFront (raw : Name) : Name := if raw.all isBlank then raw else raw.dropWhile isBlank

def stripBack (line : Name) : Name := if line.all isLineEnd then line else line.rdropWhile isLineEnd

/-- A line without comment and blanks around it, if there is anything left of it. A line of blanks only is kept. -/
def stripLine (raw : Name) : Option Name :=
  let line := stripBack ((stripFront raw).takeWhile fun c => c != '#')
  if line = [] then none else some line

/-- `%#2x` of a byte, which is signed. -/
def formatByte (c : Char) : String :=
  if c.toNat = 0 then " 0"
  else "0x" ++ String.ofList (formatHex 1 (if c.toNat < 128 then c.toNat else 2 ^ 32 - 256 + c.toNat))

def checkChars (line : Name) : Except String Unit :=
  match line.find? fun c => !(isGraph c || isBlank c) with
  | some c => .error ("invalid character " ++ formatByte c)
  | none => .ok ()

namespace Reading

def readLine (resolves : Name → Bool) (s : Reading) (raw : Name) : Except String Reading :=
  match stripLine raw with
  | none => .ok s
  | some line => do
    checkChars line
    match s.inside with
    | none => s.readSection line
    | some sect => s.readSectionLine resolves sect line

def next (resolves : Name → Bool) (s : Reading) (raw : Name) : Option Reading := (s.readLine resolves raw).toOption

end Reading

structure XConfigRead where
  line : ℕ
  error : String

/-- Reads the lines from number `line` on. A section must end before the file does. -/
def readLines (resolves : Name → Bool) : ℕ → Reading → List Name → Except XConfigRead StoredConfig
  | line, s, [] =>
    match s.inside with
    | none => .ok s.toStoredConfig
    | some sect => .error ⟨line, "unexpected end of " ++ sect.toString ++ " section"⟩
  | line, s, raw :: raws =>
    match s.readLine resolves raw with
    | .error error => .error ⟨line, error⟩
    | .ok t => readLines resolves (line + 1) t raws

def readConfig (resolves : Name → Bool) (text : Name) : Except XConfigRead StoredConfig :=
  readLines resolves 1 .start (getlines [] text)

end InputLeap
