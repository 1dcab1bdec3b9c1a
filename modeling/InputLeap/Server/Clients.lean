import InputLeap.Server.Motion

/-! Clients come and go, and the configuration changes under them. -/

namespace InputLeap

open InputLeap.Lib InputLeap.Protocol

namespace Registry

def addClient (r : Registry) (c : ClientId) : Option Registry :=
  if r.clients.contains (r.getName c) then none
  else some { r with
    clientSet := insert c r.clientSet
    clients := r.clients.insert (r.getName c) c }

/-- The entry is looked up by the name that the client has now. -/
def removeClient (r : Registry) (c : ClientId) : Registry :=
  if c ∈ r.clientSet then
    { r with
      clients := r.clients.erase (r.getName c)
      clientSet := r.clientSet.erase c }
  else r

def closeClient (r : Registry) (c : ClientId) : Registry :=
  { r.removeClient c with oldClients := insert c r.oldClients }

def removed (r : Registry) (config : Config) : OrdMap (id : ClientId → ℕ) Unit :=
  let dropped := r.clients.entries.filter fun e => !config.isCanonicalName e.1
  let removed := dropped.foldl (fun (set : OrdMap (id : ClientId → ℕ) Unit) e => set.insert e.2 ()) .empty
  removed.erase primaryClient

def removeOldClient (r : Registry) (c : ClientId) : Registry :=
  { r with oldClients := r.oldClients.erase c }

end Registry

namespace Server

def addClient (s : Server) (c : ClientId) : Option Server :=
  (s.registry.addClient c).map fun registry =>
    { s with registry := registry }.modifyProxy c fun p => { p with jump := p.cursor }

def leaving (s : Server) : ClientId := s.activeSaver.getD s.active

def forceLeaveClient (env : Env) (s : Server) (c : ClientId) : Server :=
  let s :=
    if s.leaving = c then
      { s with
        pointer := { s.pointer with pos := env.cursorCenter }
        switch := if s.switch.screen = some c then s.switch.stopSwitch else s.switch
        active := primaryClient }
    else s
  if s.activeSaver = some c then { s with activeSaver := none } else s

def closeClient (env : Env) (s : Server) (c : ClientId) : Server :=
  { s with registry := s.registry.closeClient c }.forceLeaveClient env c

def closeClients (env : Env) (s : Server) (config : Config) : Server :=
  (s.registry.removed config).entries.foldl (fun s e => s.closeClient env e.1) s

def removeActiveClient (env : Env) (s : Server) (c : ClientId) : Server :=
  if c ∈ s.registry.clientSet then
    { s with registry := s.registry.removeClient c }.forceLeaveClient env c
  else s

def removeOldClient (s : Server) (c : ClientId) : Server :=
  { s with registry := s.registry.removeOldClient c }

def clientAdopted (s : Server) (c : ClientId) : Server :=
  if c ≠ s.active then
    let s := s.dimScreenAll
    if s.lockedToScreen then s.modifyProxy c fun p => p.sendLockState true else s
  else s

def adoptClient (env : Env) (s : Server) (c : ClientId) : Server :=
  if !s.registry.config.isScreen (s.registry.names c) then s.closeClient env c
  else
    match s.addClient c with
    | none => s.closeClient env c
    | some s => s.clientAdopted c

def stopRelativeMoves (s : Server) : Server :=
  if s.settings.relativeMoves ∧ s.active ≠ primaryClient then
    let a := s.getShape s.active
    { s with pointer := ⟨(a.x + a.w / 2, a.y + a.h / 2), (0, 0), (0, 0)⟩ }
  else s

def modifySettings (s : Server) (f : Settings → Settings) : Server := { s with settings := f s.settings }

def processOption (s : Server) (id : OptionID) (value : OptionValue) : Server :=
  if id = kOptionScreenSwitchDelay then
    { s.modifySettings fun o => { o with switchWaitDelay := value.toInt.toNat } with
      switch := s.switch.stopSwitchWait }
  else if id = kOptionScreenSwitchTwoTap then
    { s.modifySettings fun o => { o with switchTwoTapDelay := value.toInt.toNat } with
      switch := s.switch.stopSwitchTwoTap }
  else if id = kOptionScreenSwitchNeedsControl then
    s.modifySettings fun o => { o with switchNeedsControl := decide (value ≠ 0) }
  else if id = kOptionScreenSwitchNeedsShift then
    s.modifySettings fun o => { o with switchNeedsShift := decide (value ≠ 0) }
  else if id = kOptionScreenSwitchNeedsAlt then
    s.modifySettings fun o => { o with switchNeedsAlt := decide (value ≠ 0) }
  else if id = kOptionClipboardSharing then
    s.modifySettings fun o => { o with enableClipboard := decide (value ≠ 0) }
  else if id = kOptionClipboardSharingSize then
    s.modifySettings fun o => { o with maximumClipboardSize := value.toInt.toNat }
  else s

def processOptions (s : Server) : Server :=
  let options := s.registry.config.globalOptions
  let s := s.modifySettings fun o =>
    { o with switchNeedsShift := false, switchNeedsControl := false, switchNeedsAlt := false }
  let s := options.entries.foldl (fun s e => s.processOption e.1 e.2) s
  let newRelativeMoves :=
    ((options.find? kOptionRelativeMouseMoves).map fun value => decide (value ≠ 0)).getD s.settings.relativeMoves
  let s := if s.settings.relativeMoves ∧ !newRelativeMoves then s.stopRelativeMoves else s
  s.modifySettings fun o => { o with relativeMoves := newRelativeMoves }

def setConfig (env : Env) (s : Server) (config : Config) : Server :=
  if config.isScreen (s.registry.names primaryClient) then (s.closeClients env config).processOptions else s

/-- The configuration that the server refers to is replaced before the server is told. -/
def reloadConfig (env : Env) (s : Server) (config : Config) : Server :=
  { s with registry := { s.registry with config := config } }.setConfig env config

def start (config : Config) (name : Name) (shape : DisplayRect) (cursor pos : Position)
    (enableDragDrop : Bool) : Server :=
  let registry : Registry := ⟨config, fun _ => name, .empty, ∅, ∅⟩
  { registry := registry
    proxies := fun _ => { Proxy.new shape cursor with dirty := fun _ => false }
    active := primaryClient
    seqNum := 0
    pointer := ⟨pos, (0, 0), (0, 0)⟩
    clipboards := fun _ => ⟨.clear, Clipboard.clear.marshall, registry.getName primaryClient, 0⟩
    activeSaver := none
    saverPos := (0, 0)
    switch := ⟨.noDirection, none, false, (0, 0), none, false, false⟩
    settings := ⟨0, 0, false, false, false, false, true, 2 ^ 31 - 1⟩
    lockedToScreen := false
    enableDragDrop := enableDragDrop
    sendDragInfoThread := false
    waitDragInfoThread := true
    faults := ⟨false, false⟩ }

/-- The constructor. The position of the cursor is whatever was in memory. -/
def new (env : Env) (config : Config) (name : Name) (shape : DisplayRect) (cursor pos : Position)
    (enableDragDrop : Bool) : Server :=
  let s := start config name shape cursor pos enableDragDrop
  let s := ((s.addClient primaryClient).getD s).setConfig env config
  if env.toggleMask &&& keyModifierScrollLock ≠ 0 then { s with lockedToScreen := true } else s

end Server

end InputLeap
