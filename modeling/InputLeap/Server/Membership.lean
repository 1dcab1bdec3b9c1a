import InputLeap.Server.CursorEvents

/-! The map of clients by name and the set of clients. Clients are looked up by the name that the
current configuration gives them, which need not be the one under which they were added. -/

namespace InputLeap

open InputLeap.Lib

namespace Registry

def closeClients (r : Registry) (config : Config) : Registry :=
  (r.removed config).entries.foldl (fun r e => r.closeClient e.1) r

def handle (r : Registry) : Event → Registry
  | .adopt c name _ _ =>
    let r := { r with names := Function.update r.names c name }
    if r.config.isScreen (r.names c) then (r.addClient c).getD (r.closeClient c) else r.closeClient c
  | .disconnected c => (r.removeClient c).removeOldClient c
  | .closeTimeout c => r.removeOldClient c
  | .reload config =>
    let r := { r with config := config }
    if config.isScreen (r.names primaryClient) then r.closeClients config else r
  | _ => r

end Registry

namespace Server

variable {env : Env} {s t : Server}

lemma Cursor.registry (h : Cursor env s t) : t.registry = s.registry := by
  cases h with
  | stays h => exact h.registry
  | switches h _ h' => rw [h'.registry, (Switched.switchScreen _ _ _ _).registry, h.registry]

structure ForcedOff (s : Server) (c : ClientId) (t : Server) : Prop where
  registry : t.registry = s.registry
  proxies : t.proxies = s.proxies
  clipboards : t.clipboards = s.clipboards
  settings : t.settings = s.settings
  faults : t.faults = s.faults
  active : t.active = if s.leaving = c then primaryClient else s.active
  screen : t.switch.screen = if s.leaving = c ∧ s.switch.screen = some c then none else s.switch.screen
  activeSaver : t.activeSaver = if s.activeSaver = some c then none else s.activeSaver

lemma forceLeaveClient_forcedOff (env : Env) (s : Server) (c : ClientId) : ForcedOff s c (s.forceLeaveClient env c) := by
  have hscreen : (if s.switch.screen = some c then s.switch.stopSwitch else s.switch).screen =
      if s.switch.screen = some c then none else s.switch.screen := by
    split_ifs
    · exact s.switch.stopSwitch_screen
    · rfl
  simp only [forceLeaveClient]
  generalize (if s.switch.screen = some c then s.switch.stopSwitch else s.switch) = w at hscreen ⊢
  split_ifs with hleaving hsaver hsaver
  · exact ⟨rfl, rfl, rfl, rfl, rfl, by simp [hleaving], by simpa [hleaving] using hscreen, (if_pos hsaver).symm⟩
  · exact ⟨rfl, rfl, rfl, rfl, rfl, by simp [hleaving], by simpa [hleaving] using hscreen, (if_neg hsaver).symm⟩
  · exact ⟨rfl, rfl, rfl, rfl, rfl, by simp [hleaving], by simp [hleaving], (if_pos hsaver).symm⟩
  · exact ⟨rfl, rfl, rfl, rfl, rfl, by simp [hleaving], by simp [hleaving], (if_neg hsaver).symm⟩

lemma clientAdopted_quiet (c : ClientId) : Quiet s (s.clientAdopted c) := by
  simp only [clientAdopted]
  split_ifs
  · exact .trans .dimScreenAll (.modifyProxy fun _ => ⟨rfl, rfl, rfl, rfl⟩)
  · exact .dimScreenAll
  · exact .refl s

lemma closeClient_registry (s : Server) (c : ClientId) :
    (s.closeClient env c).registry = s.registry.closeClient c :=
  (forceLeaveClient_forcedOff env _ c).registry

lemma closeClients_registry (s : Server) (config : Config) :
    (s.closeClients env config).registry = s.registry.closeClients config := by
  rw [closeClients, Registry.closeClients]
  generalize (s.registry.removed config).entries = es
  induction es generalizing s with
  | nil => rfl
  | cons e es ih => rw [List.foldl_cons, ih, closeClient_registry, List.foldl_cons]

lemma closeClients_kept (env : Env) (s : Server) (config : Config) : (s.closeClients env config).proxies = s.proxies ∧
    (s.closeClients env config).clipboards = s.clipboards ∧ (s.closeClients env config).settings = s.settings := by
  rw [closeClients]
  generalize (s.registry.removed config).entries = es
  induction es generalizing s with
  | nil => exact ⟨rfl, rfl, rfl⟩
  | cons e es ih =>
    have hforced := forceLeaveClient_forcedOff env { s with registry := s.registry.closeClient e.1 } e.1
    obtain ⟨hproxies, hclipboards, hsettings⟩ := ih (s.closeClient env e.1)
    exact ⟨hproxies.trans hforced.proxies, hclipboards.trans hforced.clipboards, hsettings.trans hforced.settings⟩

lemma adoptClient_cases (env : Env) (s : Server) (c : ClientId) :
    (s.adoptClient env c = s.closeClient env c ∧
      (s.registry.config.isScreen (s.registry.names c) = false ∨ s.registry.addClient c = none)) ∨
    ∃ r, s.registry.config.isScreen (s.registry.names c) = true ∧ s.registry.addClient c = some r ∧
      Quiet ({ s with registry := r }.modifyProxy c fun p => { p with jump := p.cursor }) (s.adoptClient env c) := by
  rw [adoptClient, addClient]
  cases hscreen : s.registry.config.isScreen (s.registry.names c) with
  | false => exact .inl ⟨rfl, .inl rfl⟩
  | true =>
    cases hadd : s.registry.addClient c with
    | none => exact .inl ⟨rfl, .inr rfl⟩
    | some r => exact .inr ⟨r, rfl, rfl, clientAdopted_quiet c⟩

lemma adoptClient_registry (s : Server) (c : ClientId) : (s.adoptClient env c).registry =
    if s.registry.config.isScreen (s.registry.names c) then
      (s.registry.addClient c).getD (s.registry.closeClient c)
    else s.registry.closeClient c := by
  rcases adoptClient_cases env s c with ⟨hclose, h | h⟩ | ⟨r, hscreen, hadd, hquiet⟩
  · rw [hclose, closeClient_registry, if_neg (by simp [h])]
  · rw [hclose, closeClient_registry, h, Option.getD_none, ite_self]
  · rw [hquiet.registry, if_pos hscreen, hadd]
    rfl

lemma reloadConfig_registry (s : Server) (config : Config) :
    (s.reloadConfig env config).registry = s.registry.handle (.reload config) := by
  simp only [reloadConfig, setConfig, Registry.handle]
  split_ifs
  · rw [(Reconfigured.processOptions _).registry, closeClients_registry]
  · rfl

lemma removeActiveClient_registry (s : Server) (c : ClientId) :
    (s.removeActiveClient env c).registry = s.registry.removeClient c := by
  rw [removeActiveClient]
  split_ifs with hc
  · exact (forceLeaveClient_forcedOff env _ c).registry
  · rw [Registry.removeClient, if_neg hc]

lemma handleClipboardGrabbed_eq (s : Server) (c : ClientId) (id : ClipboardID) (seqNum : ℕ) :
    ∃ proxies clipboards, s.handleClipboardGrabbed c id seqNum =
      { s with proxies := proxies, clipboards := clipboards } := by
  simp only [handleClipboardGrabbed]
  split_ifs
  · exact ⟨_, _, rfl⟩
  · exact ⟨_, _, rfl⟩
  · obtain ⟨proxies, h, -⟩ := forClients_eq ((s.modifyProxy c _).modifyClipboard id _) _
    exact ⟨proxies, _, h⟩

lemma handleClipboardChanged_sameScreens (env : Env) (s : Server) (c : ClientId) (id : ClipboardID) (seqNum : ℕ) :
    SameScreens s (s.handleClipboardChanged env c id seqNum) := by
  rw [handleClipboardChanged]
  split_ifs
  · exact .onClipboardChanged
  · exact .refl s

theorem handle_registry {e : Event} (h : s.handle env e = some t) : t.registry = s.registry.handle e := by
  by_cases he : e.movesCursor
  · rw [(handle_cursor he h).registry]
    cases e <;> first | rfl | cases he
  · cases e with
    | adopt c name shape cursor => exact Option.some.inj h ▸ adoptClient_registry _ c
    | disconnected c =>
      rw [← Option.some.inj h, removeOldClient, removeActiveClient_registry]
      rfl
    | closeTimeout c => exact Option.some.inj h ▸ rfl
    | recvClipboard c id data => exact Option.some.inj h ▸ rfl
    | clipboardGrabbed c id seqNum =>
      obtain ⟨proxies, clipboards, heq⟩ := handleClipboardGrabbed_eq s c id seqNum
      rw [← Option.some.inj h, heq]
      rfl
    | clipboardChanged c id seqNum =>
      exact Option.some.inj h ▸ (handleClipboardChanged_sameScreens env s c id seqNum).registry
    | reload config => exact Option.some.inj h ▸ reloadConfig_registry s config
    | _ => exact absurd rfl he

end Server

end InputLeap
