import InputLeap.Gui.ScreenConfig
import InputLeap.Gui.Hotkey

/-! The layout of the computers around the server, as it is edited in the GUI and follows the displays that the
computers report. Each change is saved in the store, if there is one. -/

namespace InputLeap.Gui

open InputLeap.Lib

scoped instance lawfulBEqName : LawfulBEq Name := inferInstance

/-- What the layout takes from Qt: blanks, strings without case, and the order of a hash. -/
structure Qt where
  isSpace : Char → Bool
  foldCase : Char → Char
  toLower : Name → Name
  hashOrder : List (Name × List DisplayConfig) → List (Name × List DisplayConfig)

namespace Qt

def trimmed (qt : Qt) (name : Name) : Name := (name.dropWhile qt.isSpace).rdropWhile qt.isSpace

lemma trimmed_trimmed (qt : Qt) (name : Name) : qt.trimmed (qt.trimmed name) = qt.trimmed name := by
  rw [trimmed, trimmed]
  cases hrest : (name.dropWhile qt.isSpace).rdropWhile qt.isSpace with
  | nil => rfl
  | cons c rest =>
    have hc : qt.isSpace c = false := by
      obtain ⟨tail, htail⟩ := List.rdropWhile_prefix qt.isSpace (name.dropWhile qt.isSpace)
      have hfirst := List.head?_dropWhile_not qt.isSpace name
      rw [← htail, hrest] at hfirst
      exact hfirst
    rw [List.dropWhile_cons_of_neg (Bool.eq_false_iff.mp hc), ← hrest, List.rdropWhile_idempotent]

/-- `QString::compare` with `Qt::CaseInsensitive`. -/
def sameName (qt : Qt) (a b : Name) : Bool := decide (a.map qt.foldCase = b.map qt.foldCase)

end Qt

inductive Side
  | left
  | right
  | up
  | down
  deriving DecidableEq

structure LayoutOptions where
  hasHeartbeat : Bool
  heartbeat : ℤ
  relativeMouseMoves : Bool
  screenSaverSync : Bool
  win32KeepForeground : Bool
  hasSwitchDelay : Bool
  switchDelay : ℤ
  hasSwitchDoubleTap : Bool
  switchDoubleTap : ℤ
  switchCornerSize : ℤ
  switchCorners : Fin 4 → Bool
  clipboardSharing : Bool
  clipboardSharingSize : ℕ
  dimmingEnabled : Bool
  dimmingPercentage : ℤ
  deriving DecidableEq

def LayoutOptions.default : LayoutOptions where
  hasHeartbeat := false
  heartbeat := 5000
  relativeMouseMoves := false
  screenSaverSync := true
  win32KeepForeground := false
  hasSwitchDelay := false
  switchDelay := 250
  hasSwitchDoubleTap := false
  switchDoubleTap := 250
  switchCornerSize := 0
  switchCorners _ := false
  clipboardSharing := true
  clipboardSharingSize := 100 * 1000 * 1000
  dimmingEnabled := false
  dimmingPercentage := 30

abbrev Setup := List (Name × ScreenConfig)

namespace Setup

def insert (setup : Setup) (key : Name) (s : ScreenConfig) : Setup :=
  (key, s) :: setup.filter fun e => decide (e.1 ≠ key)

def find (setup : Setup) (key : Name) : Option ScreenConfig := setup.lookup key

def ofScreens (qt : Qt) (screens : List ScreenConfig) : Setup :=
  screens.foldl (fun setup s => setup.insert (qt.toLower s.name) s) []

end Setup

/-- What `save` leaves in the settings. -/
structure LayoutStore where
  screens : List ScreenConfig
  setups : List (List ScreenConfig)
  activeSetup : Option ℕ
  deriving DecidableEq

structure LayoutModel where
  serverName : Name
  screens : List ScreenConfig
  reported : List (Name × List DisplayConfig)
  setups : List Setup
  activeSetup : Option ℕ
  store : Option LayoutStore
  options : LayoutOptions
  hotkeys : List Hotkey
  deriving DecidableEq

def kMaxSetups : ℕ := 16

namespace LayoutModel

variable (qt : Qt) (m : LayoutModel)

def empty (store : Option LayoutStore) : LayoutModel := ⟨[], [], [], [], none, store, .default, []⟩

def indexOf (name : Name) : Option ℕ :=
  if name = [] then none else m.screens.findIdx? fun s => qt.sameName s.name name

def hasScreen (name : Name) : Bool := (m.indexOf qt name).isSome

def bounds : Option Rect := Rect.box (m.screens.map ScreenConfig.desktop)

def overlapsAnother (index : Option ℕ) (rect : Rect) : Bool :=
  m.screens.zipIdx.any fun (s, i) => decide (some i ≠ index) && s.desktop.intersects rect

section Setups

def recordSetup : LayoutModel :=
  let current := Setup.ofScreens qt m.screens
  match m.activeSetup.filter fun i => decide (i < m.setups.length) with
  | some i => { m with setups := m.setups.set i current }
  | none => { m with setups := (current :: m.setups).take kMaxSetups, activeSetup := some 0 }

def save : LayoutModel :=
  match m.store with
  | none => m
  | some _ =>
    let m := m.recordSetup qt
    { m with store := some ⟨m.screens, m.setups.map (·.map Prod.snd), m.activeSetup⟩ }

def known (setup : Setup) (s : ScreenConfig) : Bool := (setup.find (qt.toLower s.name)).isSome

def others (changedName : Name) : List ScreenConfig :=
  m.screens.filter fun s => decide (qt.toLower s.name ≠ changedName)

/-- How many computers a setup knows, none if it does not fit the displays that they have now. -/
def common (changedName : Name) (displays : List DisplayConfig) (setup : Setup) : Option ℕ :=
  if (setup.find changedName).map ScreenConfig.displays ≠ some displays then none
  else
    let same := (m.others qt changedName).filterMap fun s =>
      (setup.find (qt.toLower s.name)).map fun other => decide (other.displays = s.displays)
    if same.all id then some same.length else none

def candidate (changedName : Name) (displays : List DisplayConfig) (e : Setup × ℕ) : Option ℕ :=
  if m.activeSetup = some e.2 then none else m.common qt changedName displays e.1

def better (count : Setup × ℕ → Option ℕ) (best : Option (ℕ × ℕ)) (e : Setup × ℕ) : Option (ℕ × ℕ) :=
  match count e with
  | none => best
  | some n => if best.all fun b => decide (b.2 < n) then some (e.2, n) else best

/-- The setup that knows the most computers, the first of several. -/
def bestSetup (changedName : Name) (displays : List DisplayConfig) : Option ℕ :=
  (m.setups.zipIdx.foldl (better (m.candidate qt changedName displays)) none).map Prod.fst

def restored (s stored : ScreenConfig) : ScreenConfig :=
  { s with
    x := stored.x
    y := stored.y
    displays := stored.displays
    displaysReported := stored.displaysReported
    displaysTyped := stored.displaysTyped
    scale := stored.scale
    scaleTyped := stored.scaleTyped }

def restoreScreen (setup : Setup) (s : ScreenConfig) : ScreenConfig :=
  match setup.find (qt.toLower s.name) with
  | none => s
  | some stored => restored s stored

def modifyScreen (index : ℕ) (f : ScreenConfig → ScreenConfig) : LayoutModel :=
  { m with screens := m.screens.modify index f }

/-- A computer that overlaps another goes right of all others. -/
def clearAside (index : ℕ) : LayoutModel :=
  match m.screens[index]? with
  | none => m
  | some s =>
    if m.overlapsAnother (some index) s.desktop then
      match Rect.box ((m.screens.eraseIdx index).map ScreenConfig.desktop) with
      | none => m
      | some box => m.modifyScreen index fun s => { s with x := box.right, y := box.y }
    else m

def unknown (setup : Setup) : List ℕ :=
  (m.screens.zipIdx.filter fun (s, _) => !known qt setup s).map Prod.snd

def restoreSetup (index : ℕ) (displays : List DisplayConfig) : Option LayoutModel :=
  (m.screens[index]?).bind fun changed =>
    (m.bestSetup qt (qt.toLower changed.name) displays).bind fun best =>
      (m.setups[best]?).map fun setup =>
        let unknown := m.unknown qt setup
        let m := { m with screens := m.screens.map (restoreScreen qt setup) }
        let m := unknown.foldl clearAside m
        save qt { m with activeSetup := some best }

end Setups

section Computers

def setServerName (name : Name) : LayoutModel :=
  if m.serverName = name then m
  else
    let renamed := { m with serverName := name }
    match m.indexOf qt m.serverName with
    | some old =>
      if name ≠ [] ∧ m.indexOf qt name = none then (renamed.modifyScreen old fun s => { s with name := name }).save qt
      else renamed
    | none => renamed

def reportedFor (name : Name) : List DisplayConfig :=
  (((qt.hashOrder m.reported).find? fun e => qt.sameName e.1 name).map Prod.snd).getD []

def withReported (s : ScreenConfig) (displays : List DisplayConfig) : ScreenConfig :=
  let s := { s with displays := displays }.normaliseDisplays
  { s with
    scale := if 0 < measuredScale s.displays then measuredScale s.displays else s.scale
    displaysReported := true }

def newScreen (name : Name) : ScreenConfig :=
  let reported := m.reportedFor qt name
  if reported = [] then .new name else withReported (.new name) reported

def append (s : ScreenConfig) : LayoutModel := { m with screens := m.screens ++ [s] }

def addScreen (name : Name) (x y : ℤ) : LayoutModel × Bool :=
  let trimmed := qt.trimmed name
  if trimmed = [] ∨ m.hasScreen qt trimmed then (m, false)
  else
    let screen := { m.newScreen qt trimmed with x := x, y := y }
    if m.overlapsAnother none screen.desktop then (m, false) else ((m.append screen).save qt, true)

def addScreenAnywhere (name : Name) : LayoutModel × Bool :=
  match m.bounds with
  | none => m.addScreen qt name 0 0
  | some box =>
    let y := ((m.indexOf qt m.serverName).bind (m.screens[·]?)).elim box.y fun s => s.desktop.y
    m.addScreen qt name box.right y

def adoptShift (other : LayoutModel) : ℤ × ℤ :=
  match (m.indexOf qt m.serverName).bind (m.screens[·]?), (other.indexOf qt m.serverName).bind (other.screens[·]?) with
  | some ours, some theirs => (ours.x - theirs.x, ours.y - theirs.y)
  | _, _ => (0, 0)

/-- Right of all others if there is another in its place. -/
def appendClear (screen : ScreenConfig) : LayoutModel :=
  match m.bounds with
  | none => m.append screen
  | some box =>
    m.append (if m.overlapsAnother none screen.desktop then { screen with x := box.right, y := box.y } else screen)

def adoptScreen (shift : ℤ × ℤ) (s : ScreenConfig) : LayoutModel :=
  if m.hasScreen qt s.name then m
  else
    let reported := m.reportedFor qt s.name
    let screen := if reported = [] then s else { s with displays := reported, displaysReported := true }
    m.appendClear { screen with x := screen.x + shift.1, y := screen.y + shift.2 }

def adoptScreens (other : LayoutModel) : LayoutModel :=
  let adopted := other.screens.foldl (fun m' s => m'.adoptScreen qt (m.adoptShift qt other) s) m
  if m.screens.length < adopted.screens.length then adopted.save qt else m

def besideRect (side : Side) (beside : Rect) (size : ℤ × ℤ) : Rect :=
  match side with
  | .left => ⟨beside.x - size.1, beside.y, size.1, size.2⟩
  | .right => ⟨beside.right, beside.y, size.1, size.2⟩
  | .up => ⟨beside.x, beside.y - size.2, size.1, size.2⟩
  | .down => ⟨beside.x, beside.bottom, size.1, size.2⟩

/-- Past whatever is in the way, in the row or column of the anchor. -/
def walkBeside (side : Side) (anchor : Rect) (size : ℤ × ℤ) : ℕ → Rect → Option Rect
  | 0, _ => none
  | attempts + 1, beside =>
    let candidate := besideRect side beside size
    match m.screens.find? fun s => s.desktop.intersects candidate with
    | none => some candidate
    | some blocker =>
      let beside := blocker.desktop
      let beside := if side = .left ∨ side = .right then { beside with y := anchor.y } else { beside with x := anchor.x }
      walkBeside side anchor size attempts beside

def placeNextTo (name anchor : Name) (side : Side) : LayoutModel × Bool :=
  match (m.indexOf qt anchor).bind (m.screens[·]?) with
  | none => (m, false)
  | some start =>
    let trimmed := qt.trimmed name
    if m.hasScreen qt trimmed ∨ trimmed = [] then (m, false)
    else
      let probe := (m.newScreen qt trimmed).desktop
      match m.walkBeside side start.desktop (probe.width, probe.height) 64 start.desktop with
      | none => (m, false)
      | some candidate => m.addScreen qt trimmed candidate.x candidate.y

def moveTo (index : ℕ) (x y : ℤ) : LayoutModel × Bool :=
  match m.screens[index]? with
  | none => (m, false)
  | some s =>
    let x := qBound (-kMaxDimension) x kMaxDimension
    let y := qBound (-kMaxDimension) y kMaxDimension
    if s.x = x ∧ s.y = y then (m, true)
    else if m.overlapsAnother (some index) { s.desktop with x := x, y := y } then (m, false)
    else ((m.modifyScreen index fun s => { s with x := x, y := y }).save qt, true)

def removeScreen (index : ℕ) : LayoutModel :=
  if index < m.screens.length then { m with screens := m.screens.eraseIdx index }.save qt else m

def renameScreen (index : ℕ) (name : Name) : LayoutModel × Bool :=
  let trimmed := qt.trimmed name
  match m.screens[index]? with
  | none => (m, false)
  | some s =>
    if trimmed = [] then (m, false)
    else if (m.indexOf qt trimmed).any fun other => decide (other ≠ index) then (m, false)
    else
      let m := if s.name = m.serverName then { m with serverName := trimmed } else m
      ((m.modifyScreen index fun s => { s with name := trimmed }).save qt, true)

end Computers

section Settings

structure ScreenSettings where
  displays : Option (List DisplayConfig)
  aliases : Option (List Name)
  modifiers : Option (List ℤ)
  corners : Option (List Bool)
  cornerSize : Option ℤ
  fixes : Option (List Bool)
  deriving DecidableEq

def addAlias (s : ScreenConfig) (aliases : List Name) (a : Name) : List Name :=
  let trimmed := qt.trimmed a
  if trimmed ≠ [] ∧ trimmed ≠ s.name ∧ trimmed ∉ aliases then aliases ++ [trimmed] else aliases

def ofInt6 (n : ℤ) : Fin 6 := ⟨(qBound 0 n 5).toNat, by rw [qBound]; omega⟩

def withSettings (settings : ScreenSettings) (s : ScreenConfig) : ScreenConfig :=
  { s with
    aliases := settings.aliases.elim s.aliases fun list => list.foldl (addAlias qt s) []
    modifiers := settings.modifiers.elim s.modifiers fun list i => (list[i.val]?).elim (s.modifiers i) ofInt6
    corners := settings.corners.elim s.corners fun list i => (list[i.val]?).getD (s.corners i)
    cornerSize := settings.cornerSize.elim s.cornerSize (max 0)
    fixes := settings.fixes.elim s.fixes fun list i => (list[i.val]?).getD (s.fixes i) }

def typedDisplays (s : ScreenConfig) (displays : List DisplayConfig) : ScreenConfig :=
  let probe := { s with displays := displays.map DisplayConfig.withoutSize }.normaliseDisplays
  { s with displays := probe.displays, x := probe.x, y := probe.y, displaysReported := false, displaysTyped := true }

def setScreenSettings (index : ℕ) (settings : ScreenSettings) : LayoutModel × Bool :=
  match m.screens[index]? with
  | none => (m, false)
  | some s =>
    match settings.displays with
    | none => ((m.modifyScreen index (withSettings qt settings)).save qt, true)
    | some displays =>
      let probe := typedDisplays s displays
      if m.overlapsAnother (some index) probe.desktop then (m, false)
      else ((m.modifyScreen index fun _ => withSettings qt settings probe).save qt, true)

def onlyDisplays (displays : List DisplayConfig) : ScreenSettings := ⟨some displays, none, none, none, none, none⟩

def addDisplay (index : ℕ) : LayoutModel × Bool :=
  match m.screens[index]? with
  | none => (m, false)
  | some s =>
    let next := s.displays.getLast?.elim DisplayConfig.default fun d => { d with x := d.x + d.width }
    m.setScreenSettings qt index (onlyDisplays (s.displays ++ [next]))

def removeDisplay (index display : ℕ) : LayoutModel × Bool :=
  match m.screens[index]? with
  | none => (m, false)
  | some s =>
    if s.displays.length ≤ display ∨ s.displays.length = 1 then (m, false)
    else m.setScreenSettings qt index (onlyDisplays (s.displays.eraseIdx display))

end Settings

section Geometry

def fits (screens : List ScreenConfig) : Bool :=
  decide (screens.Pairwise fun s t => s.desktop.intersects t.desktop = false)

/-- Neighbours right of and below the desktop move along with its edges. -/
def pushed (before : Rect) (dw dh : ℤ) (s : ScreenConfig) : ScreenConfig :=
  { s with
    x := if before.right ≤ s.desktop.x then s.x + dw else s.x
    y := if before.bottom ≤ s.desktop.y then s.y + dh else s.y }

def applyGeometry (index : ℕ) (probe : ScreenConfig) : LayoutModel × Bool :=
  match m.screens[index]? with
  | none => (m, false)
  | some s =>
    let before := s.desktop
    let after := probe.desktop
    let push := pushed before (after.width - before.width) (after.height - before.height)
    let moved := (m.screens.map push).set index probe
    let unchanged := m.screens.set index probe
    if fits moved then ({ m with screens := moved }.save qt, true)
    else if fits unchanged then ({ m with screens := unchanged }.save qt, true)
    else (m, false)

def applyDisplays (index : ℕ) (displays : List DisplayConfig) : LayoutModel × Bool :=
  match m.screens[index]? with
  | none => (m, false)
  | some s =>
    let probe := { s with displays := displays }.normaliseDisplays
    let measured := if probe.scaleTyped then 0 else measuredScale probe.displays
    m.applyGeometry qt index
      { probe with
        scale := if 0 < measured then measured else probe.scale
        displaysReported := true
        displaysTyped := false }

def reportedValue (name : Name) : List DisplayConfig := (m.reported.lookup name).getD []

def insertReported (name : Name) (displays : List DisplayConfig) : LayoutModel :=
  { m with reported := (name, displays) :: m.reported.filter fun e => decide (e.1 ≠ name) }

/-- The displays are those of now, and so is the scale that they give. -/
def unchangedBy (s : ScreenConfig) (clean : List DisplayConfig) : Bool :=
  let measured := if s.scaleTyped then 0 else measuredScale clean
  decide (s.displays = clean) && s.displaysReported && decide (measured = 0 ∨ measured = s.scale)

/-- Other monitors than before: back to their setup, or a new one. -/
def switchSetup (index : ℕ) (clean : List DisplayConfig) : LayoutModel × Bool :=
  match m.restoreSetup qt index clean with
  | some m => (m, true)
  | none =>
    match { m with activeSetup := none }.applyDisplays qt index clean with
    | (m', true) => (m', true)
    | (_, false) => (m, false)

def reportDisplays (name : Name) (displays : List DisplayConfig) : LayoutModel × Bool :=
  let clean := cleanDisplays displays
  if name = [] ∨ clean = [] then (m, false)
  else
    let m := m.insertReported name clean
    match m.indexOf qt name with
    | none => (m, false)
    | some index =>
      match m.screens[index]? with
      | none => (m, false)
      | some s =>
        if s.displaysTyped ∨ unchangedBy s clean then (m, false)
        else
          let otherMonitors := s.displaysReported && decide (s.displays ≠ clean) && m.store.isSome
          if otherMonitors then m.switchSetup qt index clean else m.applyDisplays qt index clean

def useReportedDisplays (index : ℕ) : LayoutModel × Bool :=
  match m.screens[index]? with
  | none => (m, false)
  | some s =>
    let reported := m.reportedValue s.name
    if reported = [] then (m, false) else m.applyDisplays qt index reported

def setScale (index : ℕ) (percent : ℚ) : LayoutModel × Bool :=
  match m.screens[index]? with
  | none => (m, false)
  | some s =>
    m.applyGeometry qt index
      { s with scale := qBound kMinScale (lroundDouble (Binary64.round (percent * 10))) kMaxScale, scaleTyped := true }

def measuredScaleOf (s : ScreenConfig) : ℤ :=
  let live := measuredScale (m.reportedValue s.name)
  if 0 < live then live else measuredScale s.displays

def useMeasuredScale (index : ℕ) : LayoutModel × Bool :=
  match m.screens[index]? with
  | none => (m, false)
  | some s =>
    let measured := m.measuredScaleOf s
    if measured = 0 then (m, false)
    else m.applyGeometry qt index { s with scale := measured, scaleTyped := false }

end Geometry

section Store

def loadScreen (s : ScreenConfig) : ScreenConfig :=
  ({ s with scale := qBound kMinScale s.scale kMaxScale } : ScreenConfig).normaliseDisplays

def loadStored (s : ScreenConfig) : ScreenConfig :=
  let displays := displaysFromJson s.displays
  { ScreenConfig.new s.name with
    x := s.x
    y := s.y
    displays := if displays = [] then [.default] else displays
    displaysReported := s.displaysReported
    displaysTyped := s.displaysTyped
    scale := qBound kMinScale s.scale kMaxScale
    scaleTyped := s.scaleTyped }

def loadScreens (m : LayoutModel) (screens : List ScreenConfig) : LayoutModel :=
  screens.foldl (fun m s => if s.name = [] ∨ m.hasScreen qt s.name then m else m.append (loadScreen s))
    { m with screens := [] }

def loadSetup (screens : List ScreenConfig) : Setup :=
  Setup.ofScreens qt ((screens.filter fun s => decide (s.name ≠ [])).map loadStored)

def loadSetups (setups : List (List ScreenConfig)) : List Setup :=
  ((setups.map (loadSetup qt)).filter fun setup => decide (setup ≠ [])).take kMaxSetups

def load : LayoutModel :=
  match m.store with
  | none => m
  | some store =>
    let m := m.loadScreens qt store.screens
    let setups := loadSetups qt store.setups
    { m with setups := setups, activeSetup := store.activeSetup.filter fun i => decide (i < setups.length) }

/-- The window is opened again on the store that the last one left. -/
def restart : LayoutModel :=
  ({ empty m.store with options := m.options, hotkeys := m.hotkeys } : LayoutModel).load qt

end Store

end LayoutModel

end InputLeap.Gui
