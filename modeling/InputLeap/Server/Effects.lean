import InputLeap.Server.Events

/-! What the operations of a server leave as it is. Most events only move the cursor: they may lead to
a switch of screens, and otherwise change nothing that the clients and the clipboards depend on. -/

namespace InputLeap

open InputLeap.Lib InputLeap.Protocol

namespace Proxy

structure SameClips (p q : Proxy) : Prop where
  dirty : p.dirty = q.dirty
  clipboard : p.clipboard = q.clipboard
  lastSet : p.lastSet = q.lastSet
  grabs : p.grabs = q.grabs

namespace SameClips

lemma refl (p : Proxy) : p.SameClips p := ⟨rfl, rfl, rfl, rfl⟩

lemma trans {p q r : Proxy} (h : p.SameClips q) (h' : q.SameClips r) : p.SameClips r :=
  ⟨h.dirty.trans h'.dirty, h.clipboard.trans h'.clipboard, h.lastSet.trans h'.lastSet, h.grabs.trans h'.grabs⟩

end SameClips

lemma recvInfo_same (p : Proxy) (shape : DisplayRect) (cursor : Position) :
    (p.recvInfo shape cursor).SameClips p ∧ (p.recvInfo shape cursor).lastDimSent = p.lastDimSent ∧
      (p.recvInfo shape cursor).lastLockSent = p.lastLockSent := by
  by_cases h : shape.w ≤ 0 ∨ shape.h ≤ 0
  · rw [recvInfo, if_pos h]
    exact ⟨.refl p, rfl, rfl⟩
  · rw [recvInfo, if_neg h]
    exact ⟨⟨rfl, rfl, rfl, rfl⟩, rfl, rfl⟩

end Proxy

namespace SwitchState

@[simp] lemma stopSwitch_screen (w : SwitchState) : w.stopSwitch.screen = none := by
  rw [stopSwitch]
  split_ifs with h
  · rfl
  · simpa using h

end SwitchState

namespace Server

variable {env : Env} {s t u : Server}

def Listed (s : Server) (c : ClientId) : Prop := ∃ n, (n, c) ∈ s.registry.clients.entries

section ForClients

lemma foldl_modifyProxy (cs : List ClientId) (f : ClientId → Proxy → Proxy) (s : Server) :
    ∃ proxies, cs.foldl (fun s c => s.modifyProxy c (f c)) s = { s with proxies := proxies } ∧
      ∀ c, proxies c = (f c)^[cs.count c] (s.proxies c) := by
  induction cs generalizing s with
  | nil => exact ⟨s.proxies, rfl, fun c => rfl⟩
  | cons d cs ih =>
    obtain ⟨proxies, heq, hproxies⟩ := ih (s.modifyProxy d (f d))
    refine ⟨proxies, heq, fun c => ?_⟩
    rw [hproxies, List.count_cons]
    by_cases hc : d = c
    · subst hc
      simp [modifyProxy, Function.iterate_succ_apply]
    · simp [modifyProxy, hc, Function.update_of_ne (Ne.symm hc)]

lemma forClients_eq (s : Server) (f : ClientId → Proxy → Proxy) :
    ∃ proxies, s.forClients f = { s with proxies := proxies } ∧
      ∀ c, ∃ n, proxies c = (f c)^[n] (s.proxies c) ∧ (s.Listed c → n ≠ 0) := by
  obtain ⟨proxies, heq, hproxies⟩ := foldl_modifyProxy (s.registry.clients.entries.map Prod.snd) f s
  refine ⟨proxies, heq, fun c => ⟨_, hproxies c, ?_⟩⟩
  rintro ⟨n, hn⟩
  rw [← Nat.pos_iff_ne_zero, List.count_pos_iff]
  exact List.mem_map.mpr ⟨_, hn, rfl⟩

lemma forClients_listed {c : ClientId} {f : ClientId → Proxy → Proxy} (hidem : ∀ p, f c (f c p) = f c p) (hc : s.Listed c) :
    (s.forClients f).proxies c = f c (s.proxies c) := by
  obtain ⟨proxies, heq, hproxies⟩ := forClients_eq s f
  obtain ⟨n, hn, hpos⟩ := hproxies c
  obtain ⟨k, rfl⟩ := Nat.exists_eq_succ_of_ne_zero (hpos hc)
  rw [heq]
  apply hn.trans
  clear hn hpos
  induction k with
  | zero => rfl
  | succ k ih => rw [Function.iterate_succ_apply', ih, hidem]

lemma forClients_faults (s : Server) (f : ClientId → Proxy → Proxy) : (s.forClients f).faults = s.faults := by
  obtain ⟨proxies, heq, -⟩ := forClients_eq s f
  rw [heq]

lemma forClients_clipboards (s : Server) (f : ClientId → Proxy → Proxy) :
    (s.forClients f).clipboards = s.clipboards := by
  obtain ⟨proxies, heq, -⟩ := forClients_eq s f
  rw [heq]

lemma iterate_kept {α : Type} (component : Proxy → α) {f : Proxy → Proxy}
    (h : ∀ p, component (f p) = component p) (n : ℕ) (p : Proxy) : component (f^[n] p) = component p := by
  induction n with
  | zero => rfl
  | succ n ih => rw [Function.iterate_succ_apply', h, ih]

lemma iterate_sameClips {f : Proxy → Proxy} (h : ∀ p, (f p).SameClips p) (n : ℕ) (p : Proxy) :
    (f^[n] p).SameClips p := by
  induction n with
  | zero => exact .refl p
  | succ n ih =>
    rw [Function.iterate_succ_apply']
    exact (h _).trans ih

end ForClients

/-- Nothing that clients and clipboards depend on has changed. A screen that is now waited for is in
the map of clients, and one that the screen saver will return to had the cursor. -/
structure Quiet (s t : Server) : Prop where
  registry : t.registry = s.registry
  clipboards : t.clipboards = s.clipboards
  settings : t.settings = s.settings
  faults : t.faults = s.faults
  active : t.active = s.active
  saver : ∀ c, t.activeSaver = some c → s.activeSaver = some c ∨ c = s.active
  screen : ∀ c, t.switch.screen = some c → s.switch.screen = some c ∨ s.Listed c
  clips : ∀ c, (t.proxies c).SameClips (s.proxies c)

def Target (s : Server) (c : ClientId) : Prop :=
  s.Listed c ∨ c = primaryClient ∨ c = s.active ∨ s.activeSaver = some c ∨ s.switch.screen = some c

namespace Quiet

lemma refl (s : Server) : Quiet s s :=
  ⟨rfl, rfl, rfl, rfl, rfl, fun _ => .inl, fun _ => .inl, fun _ => .refl _⟩

lemma listed (h : Quiet s t) {c : ClientId} (hc : t.Listed c) : s.Listed c := by
  rwa [Listed, h.registry] at hc

lemma trans (h : Quiet s t) (h' : Quiet t u) : Quiet s u where
  registry := h'.registry.trans h.registry
  clipboards := h'.clipboards.trans h.clipboards
  settings := h'.settings.trans h.settings
  faults := h'.faults.trans h.faults
  active := h'.active.trans h.active
  saver c hc := (h'.saver c hc).elim (h.saver c) fun hc => .inr (hc.trans h.active)
  screen c hc := (h'.screen c hc).elim (h.screen c) fun hc => .inr (h.listed hc)
  clips c := (h'.clips c).trans (h.clips c)

lemma modifyProxy {c : ClientId} {f : Proxy → Proxy} (h : ∀ p, (f p).SameClips p) :
    Quiet s (s.modifyProxy c f) where
  registry := rfl
  clipboards := rfl
  settings := rfl
  faults := rfl
  active := rfl
  saver _ := .inl
  screen _ := .inl
  clips d := by
    by_cases hd : d = c
    · subst hd
      simpa [Server.modifyProxy] using h _
    · simpa [Server.modifyProxy, Function.update_of_ne hd] using Proxy.SameClips.refl _

lemma forClients {f : ClientId → Proxy → Proxy} (h : ∀ c p, (f c p).SameClips p) :
    Quiet s (s.forClients f) := by
  obtain ⟨proxies, heq, hproxies⟩ := forClients_eq s f
  rw [heq]
  refine ⟨rfl, rfl, rfl, rfl, rfl, fun _ => .inl, fun _ => .inl, fun c => ?_⟩
  obtain ⟨n, hn, -⟩ := hproxies c
  simpa only [hn] using iterate_sameClips (h c) n (s.proxies c)

lemma lockStateChanged (locked : Bool) : Quiet s (s.lockStateChanged locked) :=
  forClients fun _ _ => ⟨rfl, rfl, rfl, rfl⟩

lemma dimScreenAll : Quiet s s.dimScreenAll := by
  have h : Quiet s (s.forClients fun c p => p.dimScreen (s.dimmingEnabled && decide (c ≠ s.active))) :=
    forClients fun _ _ => ⟨rfl, rfl, rfl, rfl⟩
  rw [Server.dimScreenAll]
  split_ifs
  · exact h.trans (lockStateChanged true)
  · exact h

lemma motion {pointer : Pointer} {w : SwitchState}
    (h : ∀ c, w.screen = some c → s.switch.screen = some c ∨ s.Listed c) :
    Quiet s { s with pointer := pointer, switch := w } :=
  ⟨rfl, rfl, rfl, rfl, rfl, fun _ => .inl, h, fun _ => .refl _⟩

lemma pointer {pointer : Pointer} : Quiet s { s with pointer := pointer } := motion fun _ => .inl

lemma stopRelativeMoves : Quiet s s.stopRelativeMoves := by
  rw [Server.stopRelativeMoves]
  split_ifs
  · exact pointer
  · exact refl s

end Quiet

/-- Nor have the screens been told anything of the cursor. -/
structure Still (s t : Server) : Prop extends Quiet s t where
  lockedToScreen : t.lockedToScreen = s.lockedToScreen
  lastDimSent : ∀ c, (t.proxies c).lastDimSent = (s.proxies c).lastDimSent
  lastLockSent : ∀ c, (t.proxies c).lastLockSent = (s.proxies c).lastLockSent

namespace Still

lemma refl (s : Server) : Still s s := ⟨.refl s, rfl, fun _ => rfl, fun _ => rfl⟩

lemma trans (h : Still s t) (h' : Still t u) : Still s u where
  toQuiet := h.toQuiet.trans h'.toQuiet
  lockedToScreen := h'.lockedToScreen.trans h.lockedToScreen
  lastDimSent c := (h'.lastDimSent c).trans (h.lastDimSent c)
  lastLockSent c := (h'.lastLockSent c).trans (h.lastLockSent c)

lemma modifyProxy {c : ClientId} {f : Proxy → Proxy}
    (h : ∀ p, (f p).SameClips p ∧ (f p).lastDimSent = p.lastDimSent ∧ (f p).lastLockSent = p.lastLockSent) :
    Still s (s.modifyProxy c f) := by
  refine ⟨.modifyProxy fun p => (h p).1, rfl, fun d => ?_, fun d => ?_⟩
  all_goals
    by_cases hd : d = c
    · subst hd
      simp [Server.modifyProxy, h]
    · simp [Server.modifyProxy, Function.update_of_ne hd]

lemma motion {pointer : Pointer} {w : SwitchState}
    (h : ∀ c, w.screen = some c → s.switch.screen = some c ∨ s.Listed c) :
    Still s { s with pointer := pointer, switch := w } := ⟨.motion h, rfl, fun _ => rfl, fun _ => rfl⟩

lemma pointer {pointer : Pointer} : Still s { s with pointer := pointer } := motion fun _ => .inl

lemma screensaver {activeSaver : Option ClientId} {saverPos : Position}
    (h : ∀ c, activeSaver = some c → s.activeSaver = some c ∨ c = s.active) :
    Still s { s with activeSaver := activeSaver, saverPos := saverPos } :=
  ⟨⟨rfl, rfl, rfl, rfl, rfl, h, fun _ => .inl, fun _ => .refl _⟩, rfl, fun _ => rfl, fun _ => rfl⟩

lemma drag {sendDragInfoThread waitDragInfoThread : Bool} :
    Still s { s with sendDragInfoThread := sendDragInfoThread, waitDragInfoThread := waitDragInfoThread } :=
  ⟨⟨rfl, rfl, rfl, rfl, rfl, fun _ => .inl, fun _ => .inl, fun _ => .refl _⟩, rfl, fun _ => rfl, fun _ => rfl⟩

end Still

/-- Relations between a server and what is left of it when content is copied from one clipboard to others. -/
structure Clipwise (R : Server → Server → Prop) : Prop where
  refl : ∀ s, R s s
  trans : ∀ {s t u}, R s t → R t u → R s u
  modifyClipboard : ∀ s id (f : ClipboardInfo → ClipboardInfo),
    (∀ info, (f info).owner = info.owner ∧ (f info).seqNum = info.seqNum) → R s (s.modifyClipboard id f)
  setClipboard : ∀ s c id content, R s (s.modifyProxy c fun p => p.setClipboard id content)
  setClipboardDirty : ∀ s c id dirty, R s (s.modifyProxy c fun p => p.setClipboardDirty id dirty)
  checkOwner : ∀ s sender id, R s (s.checkOwner sender id)

namespace Clipwise

variable {R : Server → Server → Prop}

lemma foldl {α : Type} (hR : Clipwise R) {f : Server → α → Server} (h : ∀ s a, R s (f s a)) (as : List α)
    (s : Server) : R s (as.foldl f s) := by
  induction as generalizing s with
  | nil => exact hR.refl s
  | cons a as ih => exact hR.trans (h s a) (ih _)

lemma updateClipboard (hR : Clipwise R) (s : Server) (sender : ClientId) (id : ClipboardID) (content : Clipboard) :
    R s (s.updateClipboard sender id content) := by
  have hcontent := hR.modifyClipboard s id (fun info => { info with clipboard := content }) fun _ => ⟨rfl, rfl⟩
  simp only [Server.updateClipboard]
  split_ifs
  · exact hcontent
  · exact hcontent
  · have hdata := hR.modifyClipboard (s.modifyClipboard id fun info => { info with clipboard := content }) id
      (fun info => { info with data := content.marshall }) fun _ => ⟨rfl, rfl⟩
    apply hR.trans (hR.trans (hR.trans hcontent hdata) _) (hR.setClipboard _ _ id content)
    apply hR.foldl
    intro s c
    exact hR.setClipboardDirty s c id _

lemma onClipboardChanged (hR : Clipwise R) (s : Server) (sender : ClientId) (id : ClipboardID) (seqNum : ℕ) :
    R s (s.onClipboardChanged env sender id seqNum) := by
  have hcheck := hR.checkOwner s sender id
  simp only [Server.onClipboardChanged]
  split_ifs
  · exact hR.refl s
  · split
    · exact hcheck
    · exact hR.trans hcheck (hR.updateClipboard _ sender id _)

lemma updatePrimaryClipboards (hR : Clipwise R) (s : Server) : R s (s.updatePrimaryClipboards env) := by
  apply hR.foldl
  intro s id
  split_ifs
  · exact hR.onClipboardChanged s _ id _
  · exact hR.refl s

lemma sendClipboards (hR : Clipwise R) (s : Server) : R s s.sendClipboards := by
  apply hR.foldl
  intro s id
  split_ifs
  · exact hR.refl s
  · exact hR.setClipboard s _ id _

end Clipwise

structure SameScreens (s t : Server) : Prop where
  registry : t.registry = s.registry
  settings : t.settings = s.settings
  active : t.active = s.active
  activeSaver : t.activeSaver = s.activeSaver
  switch : t.switch = s.switch
  staleSwitch : t.faults.staleSwitch = s.faults.staleSwitch
  owner : ∀ id, (t.clipboards id).owner = (s.clipboards id).owner
  seqNum : ∀ id, (t.clipboards id).seqNum = (s.clipboards id).seqNum
  grabs : ∀ c, (t.proxies c).grabs = (s.proxies c).grabs

namespace SameScreens

lemma refl (s : Server) : SameScreens s s :=
  ⟨rfl, rfl, rfl, rfl, rfl, rfl, fun _ => rfl, fun _ => rfl, fun _ => rfl⟩

lemma trans (h : SameScreens s t) (h' : SameScreens t u) : SameScreens s u where
  registry := h'.registry.trans h.registry
  settings := h'.settings.trans h.settings
  active := h'.active.trans h.active
  activeSaver := h'.activeSaver.trans h.activeSaver
  switch := h'.switch.trans h.switch
  staleSwitch := h'.staleSwitch.trans h.staleSwitch
  owner id := (h'.owner id).trans (h.owner id)
  seqNum id := (h'.seqNum id).trans (h.seqNum id)
  grabs c := (h'.grabs c).trans (h.grabs c)

lemma modifyClipboard {id : ClipboardID} {f : ClipboardInfo → ClipboardInfo}
    (h : ∀ info, (f info).owner = info.owner ∧ (f info).seqNum = info.seqNum) :
    SameScreens s (s.modifyClipboard id f) := by
  refine ⟨rfl, rfl, rfl, rfl, rfl, rfl, fun id' => ?_, fun id' => ?_, fun _ => rfl⟩
  all_goals
    by_cases hid : id' = id
    · subst hid
      simp [Server.modifyClipboard, h]
    · simp [Server.modifyClipboard, Function.update_of_ne hid]

lemma modifyProxy {c : ClientId} {f : Proxy → Proxy} (h : ∀ p, (f p).grabs = p.grabs) :
    SameScreens s (s.modifyProxy c f) := by
  refine ⟨rfl, rfl, rfl, rfl, rfl, rfl, fun _ => rfl, fun _ => rfl, fun d => ?_⟩
  by_cases hd : d = c
  · subst hd
    simp [Server.modifyProxy, h]
  · simp [Server.modifyProxy, Function.update_of_ne hd]

lemma forClients {f : ClientId → Proxy → Proxy} (h : ∀ c p, (f c p).grabs = p.grabs) :
    SameScreens s (s.forClients f) := by
  obtain ⟨proxies, heq, hproxies⟩ := forClients_eq s f
  rw [heq]
  refine ⟨rfl, rfl, rfl, rfl, rfl, rfl, fun _ => rfl, fun _ => rfl, fun c => ?_⟩
  obtain ⟨n, hn, -⟩ := hproxies c
  simpa only [hn] using iterate_kept Proxy.grabs (h c) n (s.proxies c)

lemma lockStateChanged (locked : Bool) : SameScreens s (s.lockStateChanged locked) := forClients fun _ _ => rfl

lemma dimScreenAll : SameScreens s s.dimScreenAll := by
  have h : SameScreens s (s.forClients fun c p => p.dimScreen (s.dimmingEnabled && decide (c ≠ s.active))) :=
    forClients fun _ _ => rfl
  rw [Server.dimScreenAll]
  split_ifs
  · exact h.trans (lockStateChanged true)
  · exact h

lemma setClipboard_grabs (p : Proxy) (id : ClipboardID) (content : Clipboard) :
    (p.setClipboard id content).grabs = p.grabs := by
  rw [Proxy.setClipboard]
  split_ifs <;> rfl

lemma clipwise : Clipwise SameScreens where
  refl := refl
  trans := trans
  modifyClipboard _ _ _ := modifyClipboard
  setClipboard _ _ _ _ := modifyProxy fun p => setClipboard_grabs p _ _
  setClipboardDirty _ _ _ _ := modifyProxy fun _ => rfl
  checkOwner _ _ _ := ⟨rfl, rfl, rfl, rfl, rfl, rfl, fun _ => rfl, fun _ => rfl, fun _ => rfl⟩

lemma onClipboardChanged {sender : ClientId} {id : ClipboardID} {seqNum : ℕ} :
    SameScreens s (s.onClipboardChanged env sender id seqNum) := clipwise.onClipboardChanged s sender id seqNum

end SameScreens

structure Switched (s : Server) (dst : ClientId) (t : Server) : Prop where
  registry : t.registry = s.registry
  settings : t.settings = s.settings
  active : t.active = s.active ∨ t.active = dst
  activeSaver : t.activeSaver = s.activeSaver
  switch : t.switch = s.switch.stopSwitch
  staleSwitch : t.faults.staleSwitch = (s.faults.staleSwitch || decide (dst ∉ s.registry.clientSet))
  owner : ∀ id, (t.clipboards id).owner = (s.clipboards id).owner
  seqNum : ∀ id, (t.clipboards id).seqNum = (s.clipboards id).seqNum
  grabs : ∀ c, (t.proxies c).grabs = (s.proxies c).grabs

namespace Switched

variable {dst : ClientId}

lemma trans (h : Switched s dst t) (h' : SameScreens t u) : Switched s dst u where
  registry := h'.registry.trans h.registry
  settings := h'.settings.trans h.settings
  active := h.active.imp h'.active.trans h'.active.trans
  activeSaver := h'.activeSaver.trans h.activeSaver
  switch := h'.switch.trans h.switch
  staleSwitch := h'.staleSwitch.trans h.staleSwitch
  owner id := (h'.owner id).trans (h.owner id)
  seqNum id := (h'.seqNum id).trans (h.seqNum id)
  grabs c := (h'.grabs c).trans (h.grabs c)

lemma leaveScreen (h : Switched s dst t) : Switched s dst (t.leaveScreen env) := by
  rw [Server.leaveScreen]
  split_ifs
  · exact h.trans (SameScreens.clipwise.updatePrimaryClipboards _)
  · exact h

lemma enterScreen (h : Switched s dst t) : Switched s dst (t.enterScreen dst) := by
  have hactive : Switched s dst { t with active := dst, seqNum := (t.seqNum + 1) % 2 ^ 32 } :=
    ⟨h.registry, h.settings, .inr rfl, h.activeSaver, h.switch, h.staleSwitch, h.owner, h.seqNum, h.grabs⟩
  simp only [Server.enterScreen]
  split_ifs
  · exact hactive.trans (SameScreens.clipwise.sendClipboards _)
  · exact hactive

theorem switchScreen (env : Env) (s : Server) (dst : ClientId) (p : Position) :
    Switched s dst (s.switchScreen env dst p) := by
  have hrecord : Switched s dst (s.recordPosition dst p) :=
    ⟨rfl, rfl, .inl rfl, rfl, rfl, rfl, fun _ => rfl, fun _ => rfl, fun _ => rfl⟩
  simp only [Server.switchScreen]
  split_ifs
  · exact hrecord
  · exact hrecord
  · exact hrecord.leaveScreen.enterScreen.trans .dimScreenAll

end Switched

structure Reconfigured (s t : Server) : Prop where
  registry : t.registry = s.registry
  proxies : t.proxies = s.proxies
  clipboards : t.clipboards = s.clipboards
  faults : t.faults = s.faults
  active : t.active = s.active
  activeSaver : t.activeSaver = s.activeSaver
  screen : t.switch.screen = s.switch.screen
  maximumClipboardSize : s.settings.maximumClipboardSize < 2 ^ 31 → t.settings.maximumClipboardSize < 2 ^ 31

namespace Reconfigured

lemma refl (s : Server) : Reconfigured s s := ⟨rfl, rfl, rfl, rfl, rfl, rfl, rfl, id⟩

lemma trans (h : Reconfigured s t) (h' : Reconfigured t u) : Reconfigured s u where
  registry := h'.registry.trans h.registry
  proxies := h'.proxies.trans h.proxies
  clipboards := h'.clipboards.trans h.clipboards
  faults := h'.faults.trans h.faults
  active := h'.active.trans h.active
  activeSaver := h'.activeSaver.trans h.activeSaver
  screen := h'.screen.trans h.screen
  maximumClipboardSize := h'.maximumClipboardSize ∘ h.maximumClipboardSize

lemma modifySettings {f : Settings → Settings}
    (h : ∀ o, o.maximumClipboardSize < 2 ^ 31 → (f o).maximumClipboardSize < 2 ^ 31) :
    Reconfigured s (s.modifySettings f) := ⟨rfl, rfl, rfl, rfl, rfl, rfl, rfl, h _⟩

lemma processOption (option : OptionID) (value : OptionValue) :
    Reconfigured s (s.processOption option value) := by
  rw [Server.processOption]
  repeat' split
  · exact ⟨rfl, rfl, rfl, rfl, rfl, rfl, rfl, id⟩
  · exact ⟨rfl, rfl, rfl, rfl, rfl, rfl, rfl, id⟩
  · exact modifySettings fun _ => id
  · exact modifySettings fun _ => id
  · exact modifySettings fun _ => id
  · exact modifySettings fun _ => id
  · apply modifySettings
    intro _ _
    have := BitVec.toInt_lt (x := value)
    dsimp only
    omega
  · exact refl s

lemma stopRelativeMoves : Reconfigured s s.stopRelativeMoves := by
  rw [Server.stopRelativeMoves]
  split_ifs
  · exact ⟨rfl, rfl, rfl, rfl, rfl, rfl, rfl, id⟩
  · exact refl s

lemma processOptions (s : Server) : Reconfigured s s.processOptions := by
  have hfold (es : List (OptionID × OptionValue)) (t : Server) (h : Reconfigured s t) :
      Reconfigured s (es.foldl (fun s e => s.processOption e.1 e.2) t) := by
    induction es generalizing t with
    | nil => exact h
    | cons e es ih => exact ih _ (h.trans (processOption e.1 e.2))
  have hmodifiers : Reconfigured s (s.modifySettings fun o =>
      { o with switchNeedsShift := false, switchNeedsControl := false, switchNeedsAlt := false }) :=
    modifySettings fun _ => id
  simp only [Server.processOptions]
  split_ifs
  · exact ((hfold _ _ hmodifiers).trans stopRelativeMoves).trans (modifySettings fun _ => id)
  · exact (hfold _ _ hmodifiers).trans (modifySettings fun _ => id)

end Reconfigured

inductive Cursor (env : Env) (s u : Server) : Prop
  | stays (h : Quiet s u)
  | switches {t : Server} {dst : ClientId} {p : Position} (h : Quiet s t) (htarget : t.Target dst)
      (h' : Quiet (t.switchScreen env dst p) u)

namespace Cursor

lemma settings (h : Cursor env s t) : t.settings = s.settings := by
  cases h with
  | stays h => exact h.settings
  | switches h _ h' => rw [h'.settings, (Switched.switchScreen _ _ _ _).settings, h.settings]

end Cursor

inductive Moves (env : Env) (s u : Server) : Prop
  | stays (h : Still s u)
  | switches {t : Server} {dst : ClientId} {p : Position} (h : Still s t) (htarget : t.Target dst)
      (h' : Still (t.switchScreen env dst p) u)

namespace Moves

lemma cursor (h : Moves env s u) : Cursor env s u := by
  cases h with
  | stays h => exact .stays h.toQuiet
  | switches h htarget h' => exact .switches h.toQuiet htarget h'.toQuiet

lemma after_still (h : Still s t) (h' : Moves env t u) : Moves env s u := by
  cases h' with
  | stays h' => exact .stays (h.trans h')
  | switches hst htarget h' => exact .switches (h.trans hst) htarget h'

lemma jumpToScreen {c : ClientId} (h : s.Target c) : Moves env s (s.jumpToScreen env c) := by
  have hjump : Still s (s.modifyProxy s.active fun p => { p with jump := s.pointer.pos }) :=
    .modifyProxy fun _ => ⟨⟨rfl, rfl, rfl, rfl⟩, rfl, rfl⟩
  exact .switches hjump h (.refl _)

end Moves

section Search

variable {pointer : Pointer} {w : SwitchState} {p : Position} {side : Direction}

lemma skipScreens_motion {fuel : ℕ} {prev : DisplayRect} {dst : ClientId} :
    { s with pointer := pointer, switch := w }.skipScreens env side fuel prev dst p =
      s.skipScreens env side fuel prev dst p := by
  induction fuel generalizing prev dst p with
  | zero => rfl
  | succ fuel ih =>
    simp only [skipScreens, ih]
    rfl

lemma mapToNeighbor_motion {src : ClientId} :
    { s with pointer := pointer, switch := w }.mapToNeighbor env src side p = s.mapToNeighbor env src side p := by
  simp only [mapToNeighbor, skipScreens_motion]
  rfl

end Search

end Server

end InputLeap
