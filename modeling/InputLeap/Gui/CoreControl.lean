import InputLeap.Gui.LayoutModel
import InputLeap.Lib.Reachable

/-! The process that the window runs, and the state that the window shows for it. Each is told of the other by signals
that are emitted from inside the calls. -/

namespace InputLeap.Gui

open InputLeap.Lib

inductive CoreState
  | stopped
  | starting
  | running
  | stopping
  | failed
  deriving DecidableEq

inductive RunState
  | stopped
  | starting
  | running
  | stopping
  | failed
  deriving DecidableEq

/-- A process that was started is launching until it is reported as started. One that failed to start is left behind. -/
inductive Child
  | launching
  | alive
  | dead
  deriving DecidableEq

/-- `processId()` of a process that does not run is 0. -/
def Child.hasPid : Child → Bool
  | launching => true
  | alive => true
  | dead => false

/-- What the settings and the layout give: the command line, with the server's address as it is set, and the
configuration of a server. -/
structure CoreSettings where
  /-- Whether there is a core program, and a server to connect to. -/
  buildable : Bool
  program : Name
  arguments : List Name
  configText : Option Name
  deriving DecidableEq

def CoreSettings.launchSignature (s : CoreSettings) : Name :=
  if s.buildable then
    s.program ++ '\n' :: List.intercalate ['\n'] s.arguments ++ s.configText.elim [] fun text => '\n' :: text
  else []

/-- What the process reports. A run is long from a minute on. -/
inductive Notice
  | started
  | failedToStart
  | finished (long : Bool)
  deriving DecidableEq

/-- What a call meets: whether the configuration can be written, whether a process can be launched at once, and what the
process that is stopped reports while it is waited for. -/
structure Circumstances where
  writes : Bool
  launches : Bool
  notices : List Notice
  deriving DecidableEq

structure CoreControl where
  service : Bool
  dryRun : Bool
  coreState : CoreState
  stopRequested : Bool
  process : Option Child
  /-- What the process was when it was signalled. -/
  signalled : List Child
  runState : RunState
  wantRunning : Bool
  pausedForTrust : Bool
  restartTimer : Bool
  applyTimer : Bool
  unexpectedExits : ℕ
  settings : CoreSettings
  launchSignature : Name
  deriving DecidableEq

namespace CoreControl

def kMaxUnexpectedExits : ℕ := 5

section Process

variable (c : CoreControl)

def onCoreStateChanged : CoreControl :=
  match c.coreState with
  | .starting => { c with runState := .starting }
  | .running => { c with runState := .running }
  | .stopping => { c with runState := .stopping }
  | .failed => { c with wantRunning := false, runState := .failed }
  | .stopped =>
    if c.wantRunning then c else { c with runState := if c.runState = .failed then .failed else .stopped }

def onCoreExited (unexpected long : Bool) : CoreControl :=
  if unexpected = false ∨ c.wantRunning = false then
    if unexpected ∧ c.pausedForTrust then { c with runState := .stopped } else c
  else
    let exits := (if long then 0 else c.unexpectedExits) + 1
    if kMaxUnexpectedExits < exits then { c with unexpectedExits := exits, wantRunning := false, runState := .failed }
    else { c with unexpectedExits := exits, runState := .starting, restartTimer := true }

def setState (state : CoreState) : CoreControl :=
  if c.coreState = state then c else onCoreStateChanged { c with coreState := state }

def reports : Notice → Bool
  | .started => c.process = some .launching
  | .failedToStart => c.process = some .launching
  | .finished _ => c.process = some .alive

def notify : Notice → CoreControl
  | .started => setState { c with process := some .alive } .running
  | .failedToStart => setState { c with process := some .dead } .failed
  | .finished long => (setState { c with process := none } .stopped).onCoreExited (!c.stopRequested) long

def startCore (launches : Bool) : CoreControl :=
  if c.coreState = .starting ∨ c.coreState = .running then c
  else
    let c := { c with stopRequested := false }
    if c.service then c.setState .running
    else
      let c := { c.setState .starting with process := some .launching }
      if launches then c else c.notify .failedToStart

/-- What cannot be reported at its time is left out. -/
def waitFor (notices : List Notice) : CoreControl :=
  notices.foldl (fun c notice => if c.reports notice then c.notify notice else c) c

def stopCore (notices : List Notice) : CoreControl :=
  let c := { c with stopRequested := true }
  if c.service then if c.coreState = .stopped then c else c.setState .stopped
  else
    match c.process with
    | none => c.setState .stopped
    | some child =>
      if c.coreState = .stopped then c
      else
        let c := c.setState .stopping
        waitFor { c with signalled := c.signalled ++ [child] } notices

end Process

section Controller

-- `start` puts this computer into the layout, which is an edit if it is not there
variable (prepare : Name → Name) (c : CoreControl)

def prepared : CoreControl :=
  let settings := { c.settings with configText := c.settings.configText.map prepare }
  { c with
    settings := settings
    applyTimer := c.applyTimer || decide (settings ≠ c.settings) }

def start (now : Circumstances) : CoreControl :=
  if c.runState = .starting ∨ c.runState = .running ∨ c.runState = .stopping then c
  else
    let c := prepared prepare { c with wantRunning := true, pausedForTrust := false }
    if c.settings.buildable = false ∨ now.writes = false then { c with wantRunning := false, runState := .failed }
    else startCore { c with runState := .starting, launchSignature := c.settings.launchSignature } now.launches

def stop (now : Circumstances) : CoreControl :=
  let c := { c with wantRunning := false, restartTimer := false }
  if c.coreState = .stopped then { c with runState := .stopped }
  else stopCore { c with runState := .stopping } now.notices

def restart (now : Circumstances) : CoreControl :=
  if c.runState = .stopped ∨ c.runState = .failed then c.start prepare now
  else { c.stop now with wantRunning := true, restartTimer := true }

def applyIfChanged (now : Circumstances) : CoreControl :=
  let signature := c.settings.launchSignature
  if c.runState ≠ .running ∨ c.dryRun then c
  else if signature = [] ∨ c.launchSignature = [] ∨ signature = c.launchSignature then c
  else c.restart prepare now

def restartTimeout (now : Circumstances) : CoreControl :=
  let c := { c with restartTimer := false }
  if c.wantRunning ∧ c.coreState = .stopped then start prepare { c with runState := .stopped } now else c

end Controller

end CoreControl

inductive ControlEvent
  | start (now : Circumstances)
  | stop (now : Circumstances)
  | restart (now : Circumstances)
  | restartTimeout (now : Circumstances)
  | notice (notice : Notice)
  /-- A new fingerprint of the server, and what the user says to it. -/
  | pauseForTrust (now : Circumstances)
  | acceptTrust (now : Circumstances)
  | rejectTrust
  /-- The core reported that it listens, or that it is connected. -/
  | connected
  | edit (settings : CoreSettings)
  | applyTimeout (now : Circumstances)
  deriving DecidableEq

namespace CoreControl

variable (prepare : Name → Name) (c : CoreControl)

def next : ControlEvent → Option CoreControl
  | .start now => some (c.start prepare now)
  | .stop now => some (c.stop now)
  | .restart now => some (c.restart prepare now)
  | .restartTimeout now => if c.restartTimer then some (c.restartTimeout prepare now) else none
  | .notice notice => if c.reports notice then some (c.notify notice) else none
  | .pauseForTrust now => some (stop { c with pausedForTrust := true } now)
  | .acceptTrust now => some (if c.pausedForTrust then start prepare { c with pausedForTrust := false } now else c)
  | .rejectTrust => some { c with pausedForTrust := false }
  | .connected => some { c with unexpectedExits := 0 }
  | .edit settings => some { c with settings := settings, applyTimer := true }
  | .applyTimeout now => if c.applyTimer then some (applyIfChanged prepare { c with applyTimer := false } now) else none

def new (service dryRun : Bool) (settings : CoreSettings) : CoreControl where
  service := service
  dryRun := dryRun
  coreState := .stopped
  stopRequested := false
  process := none
  signalled := []
  runState := .stopped
  wantRunning := false
  pausedForTrust := false
  restartTimer := false
  applyTimer := false
  unexpectedExits := 0
  settings := settings
  launchSignature := []

def Initial : Prop := c = new c.service c.dryRun c.settings

end CoreControl

end InputLeap.Gui
