import InputLeap.Server.ClientNames

/-! The screens that a server refers to are connected: the active one, the one that it waits to switch
to and the one that it returns to after the screen saver. Configurations are not loaded here. -/

namespace InputLeap

open InputLeap.Lib

namespace Server

variable {env : Env} {s t : Server}

structure Anchored (s : Server) : Prop where
  active : s.active ∈ s.registry.clientSet
  screen : ∀ c, s.switch.screen = some c → c ∈ s.registry.clientSet
  saver : ∀ c, s.activeSaver = some c → c ∈ s.registry.clientSet
  staleSwitch : s.faults.staleSwitch = false

/-- Whoever disconnects while it is active or waited for is the one that had the cursor before the
screen saver, if that is on. -/
def LeavesAlone (s : Server) : Event → Prop
  | .disconnected c => s.active = c ∨ s.switch.screen = some c → s.leaving = c
  | _ => True

namespace Anchored

lemma target (h : s.Anchored) (hkeyed : s.registry.Keyed) {c : ClientId} (hc : s.Target c) :
    c ∈ s.registry.clientSet := by
  rcases hc with hc | hc | hc | hc | hc
  · exact (hkeyed.sound.mem c).mpr hc
  · exact hc ▸ hkeyed.primary
  · exact hc ▸ h.active
  · exact h.saver c hc
  · exact h.screen c hc

lemma quiet (h : s.Anchored) (hkeyed : s.registry.Keyed) (hquiet : Quiet s t) : t.Anchored where
  active := by rw [hquiet.active, hquiet.registry]; exact h.active
  screen c hc := by
    rw [hquiet.registry]
    exact (hquiet.screen c hc).elim (h.screen c) (hkeyed.sound.mem c).mpr
  saver c hc := by
    rw [hquiet.registry]
    exact (hquiet.saver c hc).elim (h.saver c) fun hc => hc ▸ h.active
  staleSwitch := by rw [hquiet.faults, h.staleSwitch]

lemma switched (h : s.Anchored) {dst : ClientId} (hdst : dst ∈ s.registry.clientSet) (hswitched : Switched s dst t) :
    t.Anchored where
  active := by
    rw [hswitched.registry]
    exact hswitched.active.elim (fun ha => ha ▸ h.active) fun ha => ha ▸ hdst
  screen c hc := absurd hc (by simp [hswitched.switch])
  saver c hc := by
    rw [hswitched.activeSaver] at hc
    exact hswitched.registry ▸ h.saver c hc
  staleSwitch := by rw [hswitched.staleSwitch, h.staleSwitch]; simpa using hdst

lemma cursor (h : s.Anchored) (hkeyed : s.registry.Keyed) (hcursor : Cursor env s t) : t.Anchored := by
  cases hcursor with
  | stays hquiet => exact h.quiet hkeyed hquiet
  | @switches u dst p hquiet htarget hquiet' =>
    have hu := h.quiet hkeyed hquiet
    have hkeyedu : u.registry.Keyed := hquiet.registry ▸ hkeyed
    have hswitched := Switched.switchScreen env u dst p
    exact (hu.switched (hu.target hkeyedu htarget) hswitched).quiet (hswitched.registry ▸ hkeyedu) hquiet'

lemma congr (h : s.Anchored) (hset : t.registry.clientSet = s.registry.clientSet) (hactive : t.active = s.active)
    (hscreen : t.switch.screen = s.switch.screen) (hsaver : t.activeSaver = s.activeSaver)
    (hstale : t.faults.staleSwitch = s.faults.staleSwitch) : t.Anchored := by
  refine ⟨?_, ?_, ?_, hstale.trans h.staleSwitch⟩
  · rw [hset, hactive]
    exact h.active
  · rw [hset, hscreen]
    exact h.screen
  · rw [hset, hsaver]
    exact h.saver

lemma leaving (h : s.Anchored) : s.leaving ∈ s.registry.clientSet := by
  rw [Server.leaving]
  cases hsaver : s.activeSaver with
  | none => exact h.active
  | some c => exact h.saver c hsaver

lemma closeClient (h : s.Anchored) {c : ClientId} (hc : c ∉ s.registry.clientSet) : (s.closeClient env c).Anchored := by
  have hforced := forceLeaveClient_forcedOff env { s with registry := s.registry.closeClient c } c
  have hleaving : s.leaving ≠ c := fun hl => hc (hl ▸ h.leaving)
  have hsaver : s.activeSaver ≠ some c := fun hs => hc (h.saver c hs)
  refine h.congr ?_ ?_ ?_ ?_ (congrArg Faults.staleSwitch hforced.faults)
  · rw [closeClient_registry, Registry.clientSet_closeClient hc]
  · exact hforced.active.trans (if_neg hleaving)
  · exact hforced.screen.trans (if_neg fun hl => hleaving hl.1)
  · exact hforced.activeSaver.trans (if_neg hsaver)

lemma removeActiveClient (env : Env) (h : s.Anchored) (hkeyed : s.registry.Keyed) {c : ClientId} (hc : c ≠ primaryClient)
    (hleaves : s.active = c ∨ s.switch.screen = some c → s.leaving = c) : (s.removeActiveClient env c).Anchored := by
  rw [Server.removeActiveClient]
  split_ifs with hmem
  · have hforced := forceLeaveClient_forcedOff env { s with registry := s.registry.removeClient c } c
    generalize { s with registry := s.registry.removeClient c }.forceLeaveClient env c = t at hforced
    have hmem_iff (d : ClientId) : d ∈ t.registry.clientSet ↔ d ≠ c ∧ d ∈ s.registry.clientSet := by
      rw [hforced.registry, Registry.removeClient, if_pos hmem, Finset.mem_erase]
    refine ⟨(hmem_iff _).mpr ?_, fun d hd => (hmem_iff d).mpr ?_, fun d hd => (hmem_iff d).mpr ?_,
      (congrArg Faults.staleSwitch hforced.faults).trans h.staleSwitch⟩
    · by_cases hleaving : s.leaving = c
      · rw [hforced.active.trans (if_pos hleaving)]
        exact ⟨hc.symm, hkeyed.primary⟩
      · rw [hforced.active.trans (if_neg hleaving)]
        exact ⟨fun ha => hleaving (hleaves (.inl ha)), h.active⟩
    · by_cases hstop : s.leaving = c ∧ s.switch.screen = some c
      · rw [hforced.screen.trans (if_pos hstop)] at hd
        cases hd
      · rw [hforced.screen.trans (if_neg hstop)] at hd
        exact ⟨fun hdc => hstop ⟨hleaves (.inr (hdc ▸ hd)), hdc ▸ hd⟩, h.screen d hd⟩
    · by_cases hsaver : s.activeSaver = some c
      · rw [hforced.activeSaver.trans (if_pos hsaver)] at hd
        cases hd
      · rw [hforced.activeSaver.trans (if_neg hsaver)] at hd
        exact ⟨fun hdc => hsaver (hdc ▸ hd), h.saver d hd⟩
  · exact h

lemma adoptClient (h : s.Anchored) (hkeyed : s.registry.Keyed) {c : ClientId} (hc : c ∉ s.registry.clientSet) :
    (s.adoptClient env c).Anchored := by
  rcases adoptClient_cases env s c with ⟨hclose, -⟩ | ⟨r, -, hadd, hquiet⟩
  · exact hclose ▸ h.closeClient hc
  · have hr : r.Keyed := hkeyed.addClient hc hadd
    have hsub : s.registry.clientSet ⊆ r.clientSet := by
      rw [(Registry.addClient_eq_some hadd).2]
      exact Finset.subset_insert _ _
    have hadded : ({ s with registry := r }.modifyProxy c fun p => { p with jump := p.cursor }).Anchored :=
      ⟨hsub h.active, fun d hd => hsub (h.screen d hd), fun d hd => hsub (h.saver d hd), h.staleSwitch⟩
    exact hadded.quiet hr hquiet

end Anchored

theorem handle_anchored {e : Event} (h : s.Anchored) (hkeyed : s.registry.Keyed) (hreload : e.isReload = false)
    (hleaves : s.LeavesAlone e) (hallowed : s.registry.Allows e) (hhandle : s.handle env e = some t) : t.Anchored := by
  by_cases he : e.movesCursor
  · exact h.cursor hkeyed (handle_cursor he hhandle)
  · cases e with
    | adopt c name shape cursor =>
      have haccept : (s.accept c name shape cursor).Anchored := ⟨h.active, h.screen, h.saver, h.staleSwitch⟩
      exact Option.some.inj hhandle ▸ haccept.adoptClient (hkeyed.rename hallowed.2 name) hallowed.2
    | disconnected c =>
      have hremove := h.removeActiveClient env hkeyed hallowed hleaves
      exact Option.some.inj hhandle ▸ hremove.congr rfl rfl rfl rfl rfl
    | closeTimeout c => exact Option.some.inj hhandle ▸ h.congr rfl rfl rfl rfl rfl
    | recvClipboard c id data => exact Option.some.inj hhandle ▸ h.congr rfl rfl rfl rfl rfl
    | clipboardGrabbed c id seqNum =>
      obtain ⟨proxies, clipboards, heq⟩ := handleClipboardGrabbed_eq s c id seqNum
      rw [← Option.some.inj hhandle, heq]
      exact h.congr rfl rfl rfl rfl rfl
    | clipboardChanged c id seqNum =>
      have hsame := handleClipboardChanged_sameScreens env s c id seqNum
      rw [← Option.some.inj hhandle]
      exact h.congr (congrArg Registry.clientSet hsame.registry) hsame.active
        (congrArg SwitchState.screen hsame.switch) hsame.activeSaver hsame.staleSwitch
    | reload config => cases hreload
    | _ => exact absurd rfl he

lemma Initial.anchored (h : Initial s) : s.Anchored := by
  obtain ⟨config, name, shape, cursor, pos, enableDragDrop, -, hs⟩ := h.reconfigured
  refine ⟨?_, ?_, ?_, ?_⟩
  · rw [hs.active, hs.registry]
    exact Finset.mem_singleton_self _
  · rw [hs.screen]
    simp [start, modifyProxy]
  · rw [hs.activeSaver]
    simp [start, modifyProxy]
  · rw [hs.faults]
    rfl

/-- In runs in which whoever disconnects leaves alone, the screens that the server refers to are
connected and so were all screens that it switched to. -/
theorem references_connected (h : Reachable Initial next (fun s e => e.2.isReload = false ∧ s.LeavesAlone e.2) s) :
    s.active ∈ s.registry.clientSet ∧
    (∀ c, s.switch.screen = some c → c ∈ s.registry.clientSet) ∧
    (∀ c, s.activeSaver = some c → c ∈ s.registry.clientSet) ∧
    s.faults.staleSwitch = false := by
  have hinv : s.registry.Keyed ∧ s.Anchored := by
    apply h.invariant (I := fun s => s.registry.Keyed ∧ s.Anchored) (fun s hs => ⟨hs.keyed, hs.anchored⟩)
    rintro s e t ⟨hkeyed, hanchored⟩ ⟨hreload, hleaves⟩ hnext
    obtain ⟨henabled, hhandle⟩ := next_handle hnext
    exact ⟨next_keyed hkeyed hreload hnext,
      handle_anchored hanchored hkeyed hreload hleaves (allows_of_enabled henabled) hhandle⟩
  exact ⟨hinv.2.active, hinv.2.screen, hinv.2.saver, hinv.2.staleSwitch⟩

instance (s : Server) : (e : Event) → Decidable (s.LeavesAlone e)
  | .disconnected _ => inferInstanceAs (Decidable (_ ∨ _ → _))
  | .adopt _ _ _ _ | .closeTimeout _ | .info _ _ _ | .shapeChanged _ | .motionPrimary _ | .motionSecondary _
  | .buttonDown | .dragInfoSent | .screensaver _ | .switchWait | .switchToScreen _ | .toggleScreen
  | .switchInDirection _ | .lockCursorToScreen _ | .recvClipboard _ _ _ | .clipboardGrabbed _ _ _
  | .clipboardChanged _ _ _ | .reload _ => .isTrue trivial

def delayConfig : Config :=
  let c := Config.ofScreens [['p'], ['a']]
  let c := (c.connect ['p'] .right 0 1 ['a'] 0 1).getD c
  let c := (c.connect ['a'] .left 0 1 ['p'] 0 1).getD c
  (c.addOption [] kOptionScreenSwitchDelay 250).getD c

def adoptA : Event := .adopt 1 ['a'] ⟨0, 0, 1024, 768⟩ (0, 0)

theorem references_connected_disconnected : ∃ s,
    Reachable Initial next (fun s e => e.2.isReload = false ∧ s.LeavesAlone e.2) s ∧
      s.active = primaryClient ∧ 1 ∉ s.registry.clientSet ∧ s.active ∈ s.registry.clientSet := by
  obtain ⟨s, hreach, hactive, hgone⟩ : ∃ s,
      Reachable Initial next (fun s e => e.2.isReload = false ∧ s.LeavesAlone e.2) s ∧
        s.active = primaryClient ∧ 1 ∉ s.registry.clientSet :=
    Reachable.exists_of_run (plain_initial delayConfig (by decide))
      [(.plain, adoptA), (.plain, .switchToScreen ['a']), (.plain, .disconnected 1)] (by decide)
  exact ⟨s, hreach, hactive, hgone, (references_connected hreach).1⟩

/-- The cursor waits at the edge to switch to a client, which disconnects before the wait is over. -/
theorem references_not_connected : ∃ s, Reachable Initial next (fun _ e => e.2.isReload = false) s ∧
    s.faults.staleSwitch = true ∧ s.active = 1 ∧ 1 ∉ s.registry.clientSet :=
  Reachable.exists_of_run (plain_initial delayConfig (by decide))
    [(.plain, adoptA), (.plain, .motionPrimary (1919, 540)), (.plain, .disconnected 1), (.plain, .switchWait)]
    (by decide +kernel)

end Server

end InputLeap
