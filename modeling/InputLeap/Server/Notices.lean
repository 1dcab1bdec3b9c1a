import InputLeap.Server.ClientNames

/-! What the screens have been told of the cursor: whether to dim, and whether the cursor is locked to
another screen. Configurations are not loaded here. -/

namespace InputLeap

open InputLeap.Lib

namespace Server

variable {env : Env} {s t u : Server}

structure SameNotices (s t : Server) : Prop where
  registry : t.registry = s.registry
  active : t.active = s.active
  lockedToScreen : t.lockedToScreen = s.lockedToScreen
  lastDimSent : ∀ c, (t.proxies c).lastDimSent = (s.proxies c).lastDimSent
  lastLockSent : ∀ c, (t.proxies c).lastLockSent = (s.proxies c).lastLockSent

lemma Still.sameNotices (h : Still s t) : SameNotices s t :=
  ⟨h.registry, h.active, h.lockedToScreen, h.lastDimSent, h.lastLockSent⟩

namespace SameNotices

lemma refl (s : Server) : SameNotices s s := ⟨rfl, rfl, rfl, fun _ => rfl, fun _ => rfl⟩

lemma trans (h : SameNotices s t) (h' : SameNotices t u) : SameNotices s u where
  registry := h'.registry.trans h.registry
  active := h'.active.trans h.active
  lockedToScreen := h'.lockedToScreen.trans h.lockedToScreen
  lastDimSent c := (h'.lastDimSent c).trans (h.lastDimSent c)
  lastLockSent c := (h'.lastLockSent c).trans (h.lastLockSent c)

lemma forClients {f : ClientId → Proxy → Proxy}
    (h : ∀ c p, (f c p).lastDimSent = p.lastDimSent ∧ (f c p).lastLockSent = p.lastLockSent) :
    SameNotices s (s.forClients f) := by
  obtain ⟨proxies, heq, hproxies⟩ := forClients_eq s f
  rw [heq]
  refine ⟨rfl, rfl, rfl, fun c => ?_, fun c => ?_⟩
  · obtain ⟨n, hn, -⟩ := hproxies c
    simpa only [hn] using iterate_kept Proxy.lastDimSent (fun p => (h c p).1) n (s.proxies c)
  · obtain ⟨n, hn, -⟩ := hproxies c
    simpa only [hn] using iterate_kept Proxy.lastLockSent (fun p => (h c p).2) n (s.proxies c)

lemma modifyProxy {c : ClientId} {f : Proxy → Proxy}
    (h : ∀ p, (f p).lastDimSent = p.lastDimSent ∧ (f p).lastLockSent = p.lastLockSent) :
    SameNotices s (s.modifyProxy c f) := by
  refine ⟨rfl, rfl, rfl, fun d => ?_, fun d => ?_⟩
  all_goals
    by_cases hd : d = c
    · subst hd
      simp [Server.modifyProxy, h]
    · simp [Server.modifyProxy, Function.update_of_ne hd]

lemma modifyClipboard {id : ClipboardID} {f : ClipboardInfo → ClipboardInfo} :
    SameNotices s (s.modifyClipboard id f) := ⟨rfl, rfl, rfl, fun _ => rfl, fun _ => rfl⟩

lemma setClipboard (p : Proxy) (id : ClipboardID) (content : Protocol.Clipboard) :
    (p.setClipboard id content).lastDimSent = p.lastDimSent ∧
      (p.setClipboard id content).lastLockSent = p.lastLockSent := by
  rw [Proxy.setClipboard]
  split_ifs <;> exact ⟨rfl, rfl⟩

lemma clipwise : Clipwise SameNotices where
  refl := refl
  trans := trans
  modifyClipboard _ _ _ _ := modifyClipboard
  setClipboard _ _ id content := modifyProxy fun p => setClipboard p id content
  setClipboardDirty _ _ _ _ := modifyProxy fun _ => ⟨rfl, rfl⟩
  checkOwner _ _ _ := ⟨rfl, rfl, rfl, fun _ => rfl, fun _ => rfl⟩

lemma leaveScreen : SameNotices s (s.leaveScreen env) := by
  rw [Server.leaveScreen]
  split_ifs
  · exact clipwise.updatePrimaryClipboards s
  · exact refl s

lemma enterScreen (dst : ClientId) : SameNotices { s with active := dst } (s.enterScreen dst) := by
  have hactive : SameNotices { s with active := dst } { s with active := dst, seqNum := (s.seqNum + 1) % 2 ^ 32 } :=
    ⟨rfl, rfl, rfl, fun _ => rfl, fun _ => rfl⟩
  simp only [Server.enterScreen]
  split_ifs
  · exact hactive.trans (clipwise.sendClipboards _)
  · exact hactive

lemma handleClipboardGrabbed (c : ClientId) (id : ClipboardID) (seqNum : ℕ) :
    SameNotices s (s.handleClipboardGrabbed c id seqNum) := by
  have hgrab : SameNotices s (s.modifyProxy c fun p => { p with grabs := (id, seqNum) :: p.grabs }) :=
    modifyProxy fun _ => ⟨rfl, rfl⟩
  simp only [Server.handleClipboardGrabbed]
  split_ifs
  · exact refl s
  · exact hgrab
  · apply (hgrab.trans modifyClipboard).trans
    apply forClients
    intro c p
    split_ifs <;> exact ⟨rfl, rfl⟩

end SameNotices

def refuses (s : Server) (c : ClientId) : Bool :=
  !s.registry.config.isScreen (s.registry.names c) || (s.registry.addClient c).isNone

/-- The last notices tell the clients what holds. A client that was told nothing is neither dimmed nor
locked out. -/
structure Noticed (s : Server) : Prop where
  dim : s.dimmingEnabled = true → ∀ c ∈ s.registry.clientSet,
    ∀ dimmed ∈ (s.proxies c).lastDimSent, dimmed = decide (c ≠ s.active)
  lock : ∀ c ∈ s.registry.clientSet,
    (s.proxies c).lastLockSent = some true ↔ s.lockedToScreen = true ∧ c ≠ s.active

section Notices

variable {c : ClientId}

lemma lockStateChanged_listed (hc : s.Listed c) (locked : Bool) :
    (s.lockStateChanged locked).proxies c = (s.proxies c).sendLockState (locked && decide (c ≠ s.active)) :=
  forClients_listed (f := fun c p => p.sendLockState (locked && decide (c ≠ s.active))) (fun _ => rfl) hc

lemma forClients_dim_listed (hc : s.Listed c) (dim : ClientId → Bool) :
    (s.forClients fun c p => p.dimScreen (dim c)).proxies c = (s.proxies c).dimScreen (dim c) :=
  forClients_listed (f := fun c p => p.dimScreen (dim c)) (fun _ => rfl) hc

lemma dimScreenAll_listed (hc : s.Listed c) :
    (s.dimScreenAll.proxies c).lastDimSent = some (s.dimmingEnabled && decide (c ≠ s.active)) ∧
    (s.dimScreenAll.proxies c).lastLockSent =
      if s.lockedToScreen then some (decide (c ≠ s.active)) else (s.proxies c).lastLockSent := by
  obtain ⟨proxies, heq, -⟩ := forClients_eq s fun c p => p.dimScreen (s.dimmingEnabled && decide (c ≠ s.active))
  have hproxy := forClients_dim_listed hc fun c => s.dimmingEnabled && decide (c ≠ s.active)
  simp only [dimScreenAll]
  rw [heq] at hproxy ⊢
  by_cases hlocked : s.lockedToScreen
  · have hlock := lockStateChanged_listed (s := { s with proxies := proxies }) hc true
    rw [if_pos hlocked, if_pos hlocked, hlock, hproxy]
    exact ⟨rfl, by rw [Bool.true_and]; rfl⟩
  · rw [if_neg hlocked, if_neg hlocked, hproxy]
    exact ⟨rfl, rfl⟩

lemma forClients_lockedToScreen (s : Server) (f : ClientId → Proxy → Proxy) :
    (s.forClients f).lockedToScreen = s.lockedToScreen := by
  obtain ⟨proxies, heq, -⟩ := forClients_eq s f
  rw [heq]

lemma dimScreenAll_lockedToScreen (s : Server) : s.dimScreenAll.lockedToScreen = s.lockedToScreen := by
  simp only [dimScreenAll]
  split_ifs
  · rw [lockStateChanged, forClients_lockedToScreen, forClients_lockedToScreen]
  · rw [forClients_lockedToScreen]

end Notices

lemma dimmingEnabled_congr (h : t.registry.config = s.registry.config) : t.dimmingEnabled = s.dimmingEnabled := by
  rw [dimmingEnabled, dimmingEnabled, h]

namespace Noticed

lemma congr (h : s.Noticed) (hsame : SameNotices s t) : t.Noticed := by
  constructor
  · intro hdim c hc dimmed hdimmed
    rw [dimmingEnabled_congr (congrArg Registry.config hsame.registry)] at hdim
    rw [hsame.registry] at hc
    rw [hsame.lastDimSent] at hdimmed
    rw [hsame.active]
    exact h.dim hdim c hc dimmed hdimmed
  · intro c hc
    rw [hsame.registry] at hc
    rw [hsame.lastLockSent, hsame.lockedToScreen, hsame.active]
    exact h.lock c hc

lemma dimScreenAll (hexact : s.registry.Exact)
    (hlock : s.lockedToScreen = false → ∀ c ∈ s.registry.clientSet, (s.proxies c).lastLockSent ≠ some true) :
    s.dimScreenAll.Noticed := by
  have hquiet : Quiet s s.dimScreenAll := .dimScreenAll
  constructor
  · intro hdim c hc dimmed hdimmed
    rw [dimmingEnabled_congr (congrArg Registry.config hquiet.registry)] at hdim
    rw [hquiet.registry] at hc
    rw [(dimScreenAll_listed ((hexact.mem c).mp hc)).1, hdim, Bool.true_and] at hdimmed
    rw [hquiet.active]
    exact (Option.some.inj hdimmed).symm
  · intro c hc
    rw [hquiet.registry] at hc
    rw [(dimScreenAll_listed ((hexact.mem c).mp hc)).2, dimScreenAll_lockedToScreen, hquiet.active]
    by_cases hlocked : s.lockedToScreen
    · simp [hlocked]
    · rw [Bool.not_eq_true] at hlocked
      simp [hlocked, hlock hlocked c hc]

lemma unlocked (h : s.Noticed) (hlocked : s.lockedToScreen = false) :
    ∀ c ∈ s.registry.clientSet, (s.proxies c).lastLockSent ≠ some true := by
  intro c hc hlast
  simpa [hlocked] using (h.lock c hc).mp hlast

lemma cutOver (h : s.Noticed) (hexact : s.registry.Exact) (dst : ClientId) : (s.cutOver env dst).Noticed := by
  have hleft := h.congr (t := s.leaveScreen env) .leaveScreen
  have hentered : SameNotices { s.leaveScreen env with active := dst } ((s.leaveScreen env).enterScreen dst) :=
    .enterScreen dst
  have hregistry : ((s.leaveScreen env).enterScreen dst).registry = s.registry :=
    hentered.registry.trans SameNotices.leaveScreen.registry
  apply dimScreenAll
  · rwa [hregistry]
  · intro hlocked c hc
    rw [hentered.lastLockSent]
    rw [hentered.lockedToScreen] at hlocked
    rw [hentered.registry] at hc
    exact hleft.unlocked hlocked c hc

lemma switchScreen (h : s.Noticed) (hexact : s.registry.Exact) (dst : ClientId) (p : Position) :
    (s.switchScreen env dst p).Noticed := by
  have hrecord : (s.recordPosition dst p).Noticed := h.congr ⟨rfl, rfl, rfl, fun _ => rfl, fun _ => rfl⟩
  simp only [Server.switchScreen]
  split_ifs
  · exact hrecord
  · exact hrecord
  · exact hrecord.cutOver hexact dst

lemma moves (h : s.Noticed) (hexact : s.registry.Exact) (hmoves : Moves env s t) : t.Noticed := by
  cases hmoves with
  | stays hstill => exact h.congr hstill.sameNotices
  | @switches u dst p hstill _ hstill' =>
    have hu := h.congr hstill.sameNotices
    have hexactu : u.registry.Exact := by rwa [hstill.registry]
    exact (hu.switchScreen hexactu dst p).congr hstill'.sameNotices

lemma lockStateChanged (h : s.Noticed) (hexact : s.registry.Exact) (locked : Bool) :
    ({ s with lockedToScreen := locked }.lockStateChanged locked).Noticed := by
  obtain ⟨proxies, heq, hproxies⟩ := forClients_eq { s with lockedToScreen := locked }
    fun c p => p.sendLockState (locked && decide (c ≠ s.active))
  have hproxy (c : ClientId) (hc : c ∈ s.registry.clientSet) :=
    lockStateChanged_listed (s := { s with lockedToScreen := locked }) ((hexact.mem c).mp hc) locked
  rw [Server.lockStateChanged] at hproxy ⊢
  rw [heq] at hproxy ⊢
  constructor
  · intro hdim c hc dimmed hdimmed
    rw [hproxy c hc] at hdimmed
    exact h.dim hdim c hc dimmed hdimmed
  · intro c hc
    rw [hproxy c hc]
    simp [Proxy.sendLockState]

lemma handleLockCursorToScreen (h : s.Noticed) (hexact : s.registry.Exact) (state : LockState) :
    (s.handleLockCursorToScreen state).Noticed := by
  have hstop (t : Server) : SameNotices t t.stopRelativeMoves := by
    rw [stopRelativeMoves]
    split_ifs
    · exact ⟨rfl, rfl, rfl, fun _ => rfl, fun _ => rfl⟩
    · exact .refl t
  simp only [Server.handleLockCursorToScreen]
  split_ifs
  · exact h
  · exact h.lockStateChanged hexact _
  · exact (h.lockStateChanged hexact _).congr (hstop _)

lemma shrink (h : s.Noticed) {r : Registry} (hconfig : r.config = s.registry.config)
    (hsub : r.clientSet ⊆ s.registry.clientSet) : { s with registry := r }.Noticed := by
  constructor
  · intro hdim c hc
    rw [dimmingEnabled_congr (s := s) hconfig] at hdim
    exact h.dim hdim c (hsub hc)
  · intro c hc
    exact h.lock c (hsub hc)

lemma forceLeaveClient (h : s.Noticed) {c : ClientId} (hleaves : s.leaving = c → s.active = primaryClient) :
    (s.forceLeaveClient env c).Noticed := by
  have hforced := forceLeaveClient_forcedOff env s c
  have hlocked : (s.forceLeaveClient env c).lockedToScreen = s.lockedToScreen := by
    simp only [Server.forceLeaveClient]
    split_ifs <;> rfl
  have hactive : (s.forceLeaveClient env c).active = s.active := by
    rw [hforced.active]
    split_ifs with hleaving
    · exact (hleaves hleaving).symm
    · rfl
  refine h.congr ⟨hforced.registry, hactive, hlocked, fun d => ?_, fun d => ?_⟩
  · rw [hforced.proxies]
  · rw [hforced.proxies]

lemma accept (h : s.Noticed) {c : ClientId} (hc : c ∉ s.registry.clientSet) (name : Name) (shape : DisplayRect)
    (cursor : Position) : (s.accept c name shape cursor).Noticed := by
  have hother (d : ClientId) (hd : d ∈ s.registry.clientSet) :
      (s.accept c name shape cursor).proxies d = s.proxies d := by
    apply Function.update_of_ne
    rintro rfl
    exact hc hd
  constructor
  · intro hdim d hd
    rw [hother d hd]
    exact h.dim hdim d hd
  · intro d hd
    rw [hother d hd]
    exact h.lock d hd

lemma add (h : s.Noticed) {c : ClientId} {r : Registry} (hadd : s.registry.addClient c = some r)
    (hdim : (s.proxies c).lastDimSent = none) (hlock : (s.proxies c).lastLockSent = none) (hactive : c = s.active) :
    { s with registry := r }.Noticed := by
  obtain ⟨-, rfl⟩ := Registry.addClient_eq_some hadd
  constructor
  · intro henabled d hd
    rcases Finset.mem_insert.mp hd with rfl | hd
    · simp [hdim]
    · exact h.dim henabled d hd
  · intro d hd
    rcases Finset.mem_insert.mp hd with rfl | hd
    · change (s.proxies d).lastLockSent = some true ↔ _
      rw [hlock]
      simp [hactive]
    · exact h.lock d hd

lemma sendLockState (h : s.Noticed) {c : ClientId} (hlocked : s.lockedToScreen = true) (hc : c ≠ s.active) :
    (s.modifyProxy c fun p => p.sendLockState true).Noticed := by
  have hkept (d : ClientId) : ((s.modifyProxy c fun p => p.sendLockState true).proxies d).lastDimSent =
      (s.proxies d).lastDimSent := by
    by_cases hdc : d = c
    · subst hdc
      simp [modifyProxy, Proxy.sendLockState]
    · simp [modifyProxy, Function.update_of_ne hdc]
  constructor
  · intro hdim d hd
    rw [hkept]
    exact h.dim hdim d hd
  · intro d hd
    by_cases hdc : d = c
    · subst hdc
      simp [modifyProxy, Proxy.sendLockState, hlocked, hc]
    · simpa [modifyProxy, Function.update_of_ne hdc] using h.lock d hd

lemma clientAdopted {c : ClientId} (hexact : s.registry.Exact) (hactive : c = s.active → s.Noticed)
    (hlock : s.lockedToScreen = false → ∀ d ∈ s.registry.clientSet, (s.proxies d).lastLockSent ≠ some true) :
    (s.clientAdopted c).Noticed := by
  have hdimmed : s.dimScreenAll.Noticed := dimScreenAll hexact hlock
  simp only [Server.clientAdopted]
  split_ifs with hc hlocked
  · apply hdimmed.sendLockState hlocked
    rwa [Quiet.dimScreenAll.active]
  · exact hdimmed
  · exact hactive (not_not.mp hc)

lemma adoptClient (h : s.Noticed) (hexact : s.registry.Exact) {c : ClientId} (hc : c ∉ s.registry.clientSet)
    (hdim : (s.proxies c).lastDimSent = none) (hlock : (s.proxies c).lastLockSent = none)
    (hleaves : s.refuses c = true → s.leaving = c → s.active = primaryClient) : (s.adoptClient env c).Noticed := by
  have hclose (hrefused : s.refuses c = true) : (s.closeClient env c).Noticed := by
    apply forceLeaveClient
    · apply h.shrink
      · exact (Registry.removeClient_kept _ c).1
      · exact Registry.clientSet_removeClient_subset _ c
    · exact hleaves hrefused
  rw [Server.adoptClient, Server.addClient]
  cases hscreen : s.registry.config.isScreen (s.registry.names c) with
  | false => exact hclose (by simp [refuses, hscreen])
  | true =>
    cases hadd : s.registry.addClient c with
    | none => exact hclose (by simp [refuses, hscreen, hadd])
    | some r =>
      have hjump : SameNotices { s with registry := r }
          ({ s with registry := r }.modifyProxy c fun p => { p with jump := p.cursor }) :=
        .modifyProxy fun _ => ⟨rfl, rfl⟩
      apply clientAdopted
      · exact hexact.addClient hc hadd
      · intro hactive
        exact (h.add hadd hdim hlock hactive).congr hjump
      · intro hlocked d hd
        rw [hjump.lastLockSent]
        obtain ⟨-, rfl⟩ := Registry.addClient_eq_some hadd
        rcases Finset.mem_insert.mp hd with rfl | hd
        · simp [hlock]
        · exact h.unlocked hlocked d hd

lemma removeActiveClient (h : s.Noticed) {c : ClientId}
    (hleaves : c ∈ s.registry.clientSet → s.leaving = c → s.active = primaryClient) :
    (s.removeActiveClient env c).Noticed := by
  rw [Server.removeActiveClient]
  split_ifs with hc
  · apply forceLeaveClient
    · apply h.shrink
      · exact (Registry.removeClient_kept _ c).1
      · exact Registry.clientSet_removeClient_subset _ c
    · exact hleaves hc
  · exact h

end Noticed

/-- A client whose leaving sends the cursor back to the local screen leaves when it is there already. -/
def LeavesFromPrimary (s : Server) : Event → Prop
  | .disconnected c => c ∈ s.registry.clientSet → s.leaving = c → s.active = primaryClient
  | .adopt c name shape cursor =>
    (s.accept c name shape cursor).refuses c = true → s.leaving = c → s.active = primaryClient
  | _ => True

theorem handle_noticed {e : Event} (h : s.Noticed) (hexact : s.registry.Exact) (hreload : e.isReload = false)
    (hleaves : s.LeavesFromPrimary e) (hallowed : s.registry.Allows e) (hhandle : s.handle env e = some t) :
    t.Noticed := by
  by_cases he : e.movesCursor
  · rcases handle_moves he hhandle with hmoves | ⟨state, rfl⟩
    · exact h.moves hexact hmoves
    · exact Option.some.inj hhandle ▸ h.handleLockCursorToScreen hexact state
  · cases e with
    | adopt c name shape cursor =>
      have haccepted := h.accept hallowed.2 name shape cursor
      have hproxy : (s.accept c name shape cursor).proxies c = Proxy.new shape cursor := Function.update_self _ _ _
      rw [← Option.some.inj hhandle]
      apply haccepted.adoptClient ⟨hexact.mem, hexact.unique⟩ hallowed.2
      · rw [hproxy]
        rfl
      · rw [hproxy]
        rfl
      · exact hleaves
    | disconnected c =>
      exact Option.some.inj hhandle ▸ (h.removeActiveClient hleaves).shrink rfl (Finset.Subset.refl _)
    | closeTimeout c => exact Option.some.inj hhandle ▸ h.shrink rfl (Finset.Subset.refl _)
    | recvClipboard c id data =>
      exact Option.some.inj hhandle ▸ h.congr (.modifyProxy fun _ => ⟨rfl, rfl⟩)
    | clipboardGrabbed c id seqNum =>
      exact Option.some.inj hhandle ▸ h.congr (.handleClipboardGrabbed c id seqNum)
    | clipboardChanged c id seqNum =>
      rw [← Option.some.inj hhandle, handleClipboardChanged]
      split_ifs
      · exact h.congr (SameNotices.clipwise.onClipboardChanged s c id seqNum)
      · exact h
    | reload config => cases hreload
    | _ => exact absurd rfl he

lemma Initial.noticed (h : Initial s) : s.Noticed := by
  obtain ⟨config, name, shape, cursor, pos, enableDragDrop, -, hs⟩ := h.reconfigured
  have hset : s.registry.clientSet = {primaryClient} := by
    rw [hs.registry]
    rfl
  have hactive : s.active = primaryClient := hs.active
  have hproxy : (s.proxies primaryClient).lastDimSent = none ∧ (s.proxies primaryClient).lastLockSent = none := by
    rw [hs.proxies]
    exact ⟨rfl, rfl⟩
  constructor
  · intro _ c hc
    rw [hset, Finset.mem_singleton] at hc
    simp [hc, hproxy.1]
  · intro c hc
    rw [hset, Finset.mem_singleton] at hc
    simp [hc, hproxy.2, hactive]

/-- In runs in which no client leaves that had the cursor away from the local screen, the screens have been
told where the cursor is and whether it is locked. -/
theorem notices_follow_cursor
    (h : Reachable Initial next (fun s e => e.2.isReload = false ∧ s.LeavesFromPrimary e.2) s)
    {c : ClientId} (hc : c ∈ s.registry.clientSet) :
    (s.dimmingEnabled = true → (s.proxies c).lastDimSent ≠ none →
      ((s.proxies c).lastDimSent = some true ↔ c ≠ s.active)) ∧
    ((s.proxies c).lastLockSent = some true ↔ s.lockedToScreen = true ∧ c ≠ s.active) := by
  have hinv : s.registry.Keyed ∧ s.Noticed := by
    apply h.invariant (I := fun s => s.registry.Keyed ∧ s.Noticed)
    · intro s hs
      exact ⟨hs.keyed, hs.noticed⟩
    · rintro s e t ⟨hkeyed, hnoticed⟩ ⟨hreload, hleaves⟩ hnext
      obtain ⟨henabled, hhandle⟩ := next_handle hnext
      exact ⟨next_keyed hkeyed hreload hnext,
        handle_noticed hnoticed hkeyed.sound hreload hleaves (allows_of_enabled henabled) hhandle⟩
  refine ⟨fun hdim hsent => ?_, hinv.2.lock c hc⟩
  obtain ⟨dimmed, hdimmed⟩ := Option.ne_none_iff_exists'.mp hsent
  rw [hdimmed, hinv.2.dim hdim c hc dimmed hdimmed]
  simp

instance (s : Server) : (e : Event) → Decidable (s.LeavesFromPrimary e)
  | .disconnected _ => inferInstanceAs (Decidable (_ → _ → _))
  | .adopt _ _ _ _ => inferInstanceAs (Decidable (_ → _ → _))
  | .closeTimeout _ | .info _ _ _ | .shapeChanged _ | .motionPrimary _ | .motionSecondary _
  | .buttonDown | .dragInfoSent | .screensaver _ | .switchWait | .switchToScreen _ | .toggleScreen
  | .switchInDirection _ | .lockCursorToScreen _ | .recvClipboard _ _ _ | .clipboardGrabbed _ _ _
  | .clipboardChanged _ _ _ | .reload _ => .isTrue trivial

def switchToA : List (Env × Event) :=
  [(.plain, .adopt 1 ['a'] ⟨0, 0, 1024, 768⟩ (0, 0)), (.plain, .switchToScreen ['a'])]

theorem notices_follow_cursor_locked : ∃ s,
    Reachable Initial next (fun s e => e.2.isReload = false ∧ s.LeavesFromPrimary e.2) s ∧
      s.active = 1 ∧ s.lockedToScreen = true ∧ (s.proxies primaryClient).lastLockSent = some true := by
  obtain ⟨s, hreach, hactive, hlocked, hmem⟩ : ∃ s,
      Reachable Initial next (fun s e => e.2.isReload = false ∧ s.LeavesFromPrimary e.2) s ∧
        s.active = 1 ∧ s.lockedToScreen = true ∧ primaryClient ∈ s.registry.clientSet :=
    Reachable.exists_of_run (plain_initial (.ofScreens [['p'], ['a']]) (by decide))
      (switchToA ++ [(.plain, .lockCursorToScreen .on)]) (by decide)
  refine ⟨s, hreach, hactive, hlocked, (notices_follow_cursor hreach hmem).2.mpr ⟨hlocked, ?_⟩⟩
  rw [hactive]
  decide

/-- The client with the cursor disconnects, and the local screen is left dimmed. -/
theorem notices_left_behind : ∃ s, Reachable Initial next (fun _ e => e.2.isReload = false) s ∧
    primaryClient ∈ s.registry.clientSet ∧ s.dimmingEnabled = true ∧ s.active = primaryClient ∧
      (s.proxies primaryClient).lastDimSent = some true :=
  Reachable.exists_of_run (plain_initial (.ofScreens [['p'], ['a']]) (by decide))
    (switchToA ++ [(.plain, .disconnected 1)]) (by decide)

end Server

end InputLeap
