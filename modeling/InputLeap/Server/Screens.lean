import InputLeap.Server.Switching

/-! What happens to clipboards and screens when the cursor changes screens. -/

namespace InputLeap

open InputLeap.Lib InputLeap.Protocol

namespace Proxy

def setClipboard (p : Proxy) (id : ClipboardID) (clipboard : Clipboard) : Proxy :=
  if p.dirty id then
    { p with
      dirty := Function.update p.dirty id false
      clipboard := Function.update p.clipboard id clipboard
      lastSet := Function.update p.lastSet id (some clipboard) }
  else p

def setClipboardDirty (p : Proxy) (id : ClipboardID) (dirty : Bool) : Proxy :=
  { p with dirty := Function.update p.dirty id dirty }

def grabClipboard (p : Proxy) (id : ClipboardID) : Proxy := p.setClipboardDirty id true

def dimScreen (p : Proxy) (dim : Bool) : Proxy := { p with lastDimSent := some dim }

def sendLockState (p : Proxy) (locked : Bool) : Proxy := { p with lastLockSent := some locked }

end Proxy

namespace Server

def forClients (s : Server) (f : ClientId → Proxy → Proxy) : Server :=
  (s.registry.clients.entries.map Prod.snd).foldl (fun s c => s.modifyProxy c (f c)) s

def lockStateChanged (s : Server) (locked : Bool) : Server :=
  s.forClients fun c p => p.sendLockState (locked && decide (c ≠ s.active))

def dimmingEnabled (s : Server) : Bool :=
  match (s.registry.config.getOptions []).bind fun o => o.find? kOptionScreenDimmingEnabled with
  | none => true
  | some value => decide (value ≠ 0)

def dimScreenAll (s : Server) : Server :=
  let t := s.forClients fun c p => p.dimScreen (s.dimmingEnabled && decide (c ≠ s.active))
  if t.lockedToScreen then t.lockStateChanged true else t

def clipboardOf (env : Env) (s : Server) (c : ClientId) (id : ClipboardID) : Option Clipboard :=
  if c = primaryClient then env.getClipboard id else some ((s.proxies c).clipboard id)

def modifyClipboard (s : Server) (id : ClipboardID) (f : ClipboardInfo → ClipboardInfo) : Server :=
  { s with clipboards := Function.update s.clipboards id (f (s.clipboards id)) }

def checkOwner (s : Server) (sender : ClientId) (id : ClipboardID) : Server :=
  { s with faults := { s.faults with
      clipboardOwner := s.faults.clipboardOwner ||
        decide (s.registry.clients.find? (s.clipboards id).owner ≠ some sender) } }

/-- The content is kept even if it is too large to be sent on. -/
def updateClipboard (s : Server) (sender : ClientId) (id : ClipboardID) (content : Clipboard) : Server :=
  let old := (s.clipboards id).data
  let s := s.modifyClipboard id fun info => { info with clipboard := content }
  let data := content.marshall
  if s.settings.maximumClipboardSize < data.length then s
  else if data = old then s
  else
    let s := s.modifyClipboard id fun info => { info with data := data }
    let s := s.forClients fun c p => p.setClipboardDirty id (decide (c ≠ sender))
    s.modifyProxy s.active fun p => p.setClipboard id content

def onClipboardChanged (env : Env) (s : Server) (sender : ClientId) (id : ClipboardID) (seqNum : ℕ) : Server :=
  if seqNum < (s.clipboards id).seqNum then s
  else
    let s := s.checkOwner sender id
    match s.clipboardOf env sender id with
    | none => s
    | some content => s.updateClipboard sender id content

def updatePrimaryClipboards (env : Env) (s : Server) : Server :=
  clipboardIDs.foldl (fun s id =>
    if (s.clipboards id).owner = s.getName primaryClient then
      s.onClipboardChanged env primaryClient id (s.clipboards id).seqNum
    else s) s

def sendClipboards (s : Server) : Server :=
  clipboardIDs.foldl (fun s id =>
    if s.settings.maximumClipboardSize < (s.clipboards id).clipboard.marshall.length then s
    else s.modifyProxy s.active fun p => p.setClipboard id (s.clipboards id).clipboard) s

def leaveScreen (env : Env) (s : Server) : Server :=
  if s.active = primaryClient ∧ s.settings.enableClipboard then s.updatePrimaryClipboards env else s

def enterScreen (s : Server) (dst : ClientId) : Server :=
  let s := { s with active := dst, seqNum := (s.seqNum + 1) % 2 ^ 32 }
  if s.settings.enableClipboard then s.sendClipboards else s

def cutOver (env : Env) (s : Server) (dst : ClientId) : Server := ((s.leaveScreen env).enterScreen dst).dimScreenAll

def recordPosition (s : Server) (dst : ClientId) (p : Position) : Server :=
  { s with
    faults := { s.faults with staleSwitch := s.faults.staleSwitch || decide (dst ∉ s.registry.clientSet) }
    switch := s.switch.stopSwitch
    pointer := ⟨s.stayOnDisplays dst p p, (0, 0), (0, 0)⟩ }

def switchScreen (env : Env) (s : Server) (dst : ClientId) (p : Position) : Server :=
  let s := s.recordPosition dst p
  if s.active = dst then s
  else if s.active = primaryClient ∧ !env.leave then s
  else s.cutOver env dst

def jumpToScreen (env : Env) (s : Server) (newScreen : ClientId) : Server :=
  let s := s.modifyProxy s.active fun p => { p with jump := s.pointer.pos }
  s.switchScreen env newScreen (s.proxies newScreen).jump

def saverReturn (env : Env) (s : Server) (screen : ClientId) : Position :=
  let d := s.getShape screen
  let zoneSize := getJumpZoneSize env screen
  let x := s.saverPos.1
  let y := s.saverPos.2
  (if x < d.x + zoneSize then d.x + zoneSize
    else if d.x + d.w - zoneSize ≤ x then d.x + d.w - zoneSize - 1 else x,
   if y < d.y + zoneSize then d.y + zoneSize
    else if d.y + d.h - zoneSize ≤ y then d.y + d.h - zoneSize - 1 else y)

def onScreensaver (env : Env) (s : Server) (activated : Bool) : Server :=
  if activated then
    let s := { s with activeSaver := some s.active, saverPos := s.pointer.pos }
    if s.active ≠ primaryClient then s.switchScreen env primaryClient (0, 0) else s
  else
    match s.activeSaver with
    | none => s
    | some screen =>
      if screen ≠ primaryClient then
        let p := s.saverReturn env screen
        { { s with saverPos := p }.switchScreen env screen p with activeSaver := none }
      else { s with activeSaver := none }

end Server

end InputLeap
