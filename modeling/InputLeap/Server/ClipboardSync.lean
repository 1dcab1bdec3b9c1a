import InputLeap.Server.ClientNames

/-! A clipboard that is not dirty is in sync: what a screen was last given is what the server has. -/

namespace InputLeap

open InputLeap.Lib InputLeap.Protocol

namespace Proxy

variable {p : Proxy} {id id' : ClipboardID} {content content' : Clipboard}

lemma setClipboard_clean (h : (p.setClipboard id content).dirty id' = false) :
    id' = id ∧ (p.setClipboard id content).lastSet id' = some content ∨
      p.dirty id' = false ∧ (p.setClipboard id content).lastSet id' = p.lastSet id' := by
  rw [setClipboard] at h ⊢
  split_ifs at h ⊢
  · by_cases hid : id' = id
    · subst hid
      exact .inl ⟨rfl, by simp⟩
    · simp only [Function.update_of_ne hid] at h ⊢
      exact .inr ⟨h, trivial⟩
  · exact .inr ⟨h, rfl⟩

lemma setClipboardDirty_idem (p : Proxy) (id : ClipboardID) (dirty : Bool) :
    (p.setClipboardDirty id dirty).setClipboardDirty id dirty = p.setClipboardDirty id dirty := by
  simp [setClipboardDirty]

end Proxy

namespace Server

variable {env : Env} {s t : Server} {c sender : ClientId} {id : ClipboardID} {content : Clipboard}

structure Synced (s : Server) : Prop where
  clean : ∀ c ∈ s.registry.clientSet, ∀ id, (s.proxies c).dirty id = false →
    (s.clipboards id).owner = s.getName c ∨ (s.proxies c).lastSet id = some (s.clipboards id).clipboard
  data : ∀ id, (s.clipboards id).data = (s.clipboards id).clipboard.marshall
  size : s.settings.maximumClipboardSize < 2 ^ 31

def Fits (s : Server) (id : ClipboardID) (content : Clipboard) : Prop :=
  content.marshall.length ≤ s.settings.maximumClipboardSize ∨ content = (s.clipboards id).clipboard

def PrimaryFits (env : Env) (s : Server) : Prop :=
  s.active = primaryClient → s.settings.enableClipboard = true →
    ∀ id, (s.clipboards id).owner = s.getName primaryClient → ∀ content ∈ env.getClipboard id, s.Fits id content

/-- Updates that are taken come from the owner and fit, and a configuration does not rename owners that
stay. -/
def KeepsOwner (s : Server) : Event → Prop
  | .clipboardChanged c id m =>
    c ∈ s.registry.clientSet → (s.clipboards id).seqNum ≤ m →
      (s.clipboards id).owner = s.getName c ∧ s.Fits id ((s.proxies c).clipboard id)
  | .reload config =>
    ∀ c ∈ (s.registry.handle (.reload config)).clientSet, ∀ id, (s.clipboards id).owner = s.getName c →
      (s.clipboards id).owner = (s.registry.handle (.reload config)).getName c
  | _ => True

def HandsOver (s : Server) (e : Env × Event) : Prop :=
  s.registry.RemovesOwn e.2 ∧ (e.2.movesCursor = true → s.PrimaryFits e.1) ∧ s.KeepsOwner e.2

lemma onClipboardChanged_other {id' : ClipboardID} {seqNum : ℕ} (h : id' ≠ id) :
    (s.onClipboardChanged env sender id seqNum).clipboards id' = s.clipboards id' := by
  have hupdate (t : Server) (content : Clipboard) :
      (t.updateClipboard sender id content).clipboards id' = t.clipboards id' := by
    simp only [updateClipboard]
    split_ifs
    · exact Function.update_of_ne h _ _
    · exact Function.update_of_ne h _ _
    · rw [modifyProxy, forClients_clipboards]
      simp [modifyClipboard, Function.update_of_ne h]
  simp only [onClipboardChanged]
  split_ifs
  · rfl
  · split
    · rfl
    · exact hupdate _ _

namespace Synced

lemma congr (h : s.Synced)
    (hclient : ∀ c ∈ t.registry.clientSet, (t.proxies c).dirty = (fun _ => true) ∨
      c ∈ s.registry.clientSet ∧ (t.proxies c).dirty = (s.proxies c).dirty ∧
        (t.proxies c).lastSet = (s.proxies c).lastSet ∧
        ∀ id, (s.clipboards id).owner = s.getName c → (s.clipboards id).owner = t.getName c)
    (hclipboards : t.clipboards = s.clipboards) (hsize : t.settings.maximumClipboardSize < 2 ^ 31) : t.Synced := by
  refine ⟨fun c hc id hdirty => ?_, ?_, hsize⟩
  · rcases hclient c hc with hnew | ⟨hmem, hsame, hlast, hname⟩
    · simp [hnew] at hdirty
    · rw [hclipboards, hlast]
      exact (h.clean c hmem id (hsame ▸ hdirty)).imp (hname id) fun hlast => hlast
  · rw [hclipboards]
    exact h.data

lemma quiet (h : s.Synced) (hquiet : Quiet s t) : t.Synced := by
  refine h.congr (fun c hc => .inr ⟨?_, (hquiet.clips c).dirty, (hquiet.clips c).lastSet, fun id hid => ?_⟩)
    hquiet.clipboards (hquiet.settings ▸ h.size)
  · rwa [hquiet.registry] at hc
  · rwa [getName, hquiet.registry]

lemma setClipboard (h : s.Synced) (c : ClientId) (hcontent : content = (s.clipboards id).clipboard) :
    (s.modifyProxy c fun p => p.setClipboard id content).Synced := by
  refine ⟨fun d hd id' hdirty => ?_, h.data, h.size⟩
  subst hcontent
  by_cases hdc : d = c
  · subst hdc
    simp only [modifyProxy, Function.update_self] at hdirty ⊢
    rcases Proxy.setClipboard_clean hdirty with ⟨rfl, hlast⟩ | ⟨hclean, hlast⟩
    · exact .inr hlast
    · rw [hlast]
      exact h.clean d hd id' hclean
  · simp only [modifyProxy, Function.update_of_ne hdc] at hdirty ⊢
    exact h.clean d hd id' hdirty

lemma takeSame (h : s.Synced) (hcontent : content = (s.clipboards id).clipboard) :
    (s.modifyClipboard id fun info => { info with clipboard := content }).Synced := by
  have hsame : (s.modifyClipboard id fun info => { info with clipboard := content }) = s := by
    subst hcontent
    simp [modifyClipboard]
  rwa [hsame]

lemma markOthers (h : s.Synced) (hexact : s.registry.Exact) (id : ClipboardID) (info : ClipboardInfo)
    (hdata : info.data = info.clipboard.marshall) (howner : info.owner = s.getName c) :
    ((s.modifyClipboard id fun _ => info).forClients fun d p => p.setClipboardDirty id (decide (d ≠ c))).Synced := by
  obtain ⟨proxies, heq, -⟩ := forClients_eq (s.modifyClipboard id fun _ => info) fun d p =>
    p.setClipboardDirty id (decide (d ≠ c))
  have hproxies (d : ClientId) (hd : d ∈ s.registry.clientSet) :
      proxies d = (s.proxies d).setClipboardDirty id (decide (d ≠ c)) := by
    have hlisted : (s.modifyClipboard id fun _ => info).Listed d := (hexact.mem d).mp hd
    have := forClients_listed (f := fun d p => p.setClipboardDirty id (decide (d ≠ c)))
      (fun p => p.setClipboardDirty_idem id _) hlisted
    rwa [heq] at this
  rw [heq]
  refine ⟨fun d hd id' hdirty => ?_, fun id' => ?_, h.size⟩
  · simp only [hproxies d hd, Proxy.setClipboardDirty, modifyClipboard] at hdirty ⊢
    by_cases hid : id' = id
    · subst hid
      have hdc : d = c := by simpa using hdirty
      exact .inl (by rw [Function.update_self, howner, hdc]; rfl)
    · rw [Function.update_of_ne hid] at hdirty ⊢
      exact h.clean d hd id' hdirty
  · by_cases hid : id' = id
    · subst hid
      simpa [modifyClipboard] using hdata
    · simpa [modifyClipboard, Function.update_of_ne hid] using h.data id'

lemma updateClipboard (h : s.Synced) (hexact : s.registry.Exact) (howner : (s.clipboards id).owner = s.getName sender)
    (hfits : s.Fits id content) : (s.updateClipboard sender id content).Synced := by
  simp only [Server.updateClipboard]
  split_ifs with hlarge hold
  · exact h.takeSame (hfits.resolve_left (not_le.mpr hlarge))
  · have hsmall : content.marshall.length < 2 ^ 32 := by
      have := h.size
      have : content.marshall.length ≤ s.settings.maximumClipboardSize := not_lt.mp hlarge
      omega
    refine h.takeSame (Clipboard.marshall_injective hsmall ?_)
    rw [hold, h.data]
  · have htake : ((s.modifyClipboard id fun info => { info with clipboard := content }).modifyClipboard id fun info =>
        { info with data := content.marshall }) =
        s.modifyClipboard id fun _ => { s.clipboards id with clipboard := content, data := content.marshall } := by
      simp [modifyClipboard]
    rw [htake]
    have hmarked := h.markOthers hexact id { s.clipboards id with clipboard := content, data := content.marshall }
      rfl howner
    apply hmarked.setClipboard _
    rw [forClients_clipboards]
    simp [modifyClipboard]

lemma onClipboardChanged {seqNum : ℕ} (h : s.Synced) (hexact : s.registry.Exact)
    (hsender : (s.clipboards id).seqNum ≤ seqNum → (s.clipboards id).owner = s.getName sender ∧
      ∀ content ∈ s.clipboardOf env sender id, s.Fits id content) :
    (s.onClipboardChanged env sender id seqNum).Synced := by
  simp only [Server.onClipboardChanged]
  split_ifs with hold
  · exact h
  · obtain ⟨howner, hfits⟩ := hsender (not_lt.mp hold)
    have hcheck : (s.checkOwner sender id).Synced := ⟨h.clean, h.data, h.size⟩
    split
    · exact hcheck
    · next content hcontent => exact hcheck.updateClipboard hexact howner (hfits content hcontent)

lemma updatePrimaryClipboards (h : s.Synced) (hexact : s.registry.Exact)
    (hfits : ∀ id, (s.clipboards id).owner = s.getName primaryClient → ∀ content ∈ env.getClipboard id, s.Fits id content) :
    (s.updatePrimaryClipboards env).Synced := by
  rw [Server.updatePrimaryClipboards]
  have hnodup : clipboardIDs.Nodup := by decide
  replace hfits := fun id (_ : id ∈ clipboardIDs) => hfits id
  generalize clipboardIDs = ids at hnodup hfits
  induction ids generalizing s with
  | nil => exact h
  | cons id ids ih =>
    obtain ⟨hid, hnodup⟩ := List.nodup_cons.mp hnodup
    rw [List.foldl_cons]
    split_ifs with howner
    · have hsame : SameScreens s (s.onClipboardChanged env primaryClient id (s.clipboards id).seqNum) :=
        .onClipboardChanged
      refine ih (h.onClipboardChanged hexact fun _ => ⟨howner, ?_⟩) (hsame.registry ▸ hexact) hnodup fun id' hid' => ?_
      · exact hfits id List.mem_cons_self howner
      · have hne : id' ≠ id := fun heq => hid (heq ▸ hid')
        simp only [Fits, onClipboardChanged_other hne, getName, hsame.registry, hsame.settings]
        exact hfits id' (List.mem_cons_of_mem id hid')
    · exact ih h hexact hnodup fun id' hid' => hfits id' (List.mem_cons_of_mem id hid')

lemma sendClipboards (h : s.Synced) : s.sendClipboards.Synced := by
  rw [Server.sendClipboards]
  generalize clipboardIDs = ids
  induction ids generalizing s with
  | nil => exact h
  | cons id ids ih =>
    rw [List.foldl_cons]
    split_ifs
    · exact ih h
    · exact ih (h.setClipboard _ rfl)

lemma switchScreen (h : s.Synced) (hexact : s.registry.Exact) (hfits : s.PrimaryFits env) (dst : ClientId)
    (p : Position) : (s.switchScreen env dst p).Synced := by
  have hrecord : (s.recordPosition dst p).Synced := ⟨h.clean, h.data, h.size⟩
  have hleave : ((s.recordPosition dst p).leaveScreen env).Synced := by
    rw [leaveScreen]
    split_ifs with hleave
    · exact hrecord.updatePrimaryClipboards hexact (hfits hleave.1 hleave.2)
    · exact hrecord
  have henter : (((s.recordPosition dst p).leaveScreen env).enterScreen dst).Synced := by
    have hactive := hleave
    generalize (s.recordPosition dst p).leaveScreen env = t at hactive ⊢
    have hactive : Synced { t with active := dst, seqNum := (t.seqNum + 1) % 2 ^ 32 } :=
      ⟨hactive.clean, hactive.data, hactive.size⟩
    simp only [enterScreen]
    split_ifs
    · exact hactive.sendClipboards
    · exact hactive
  simp only [Server.switchScreen]
  split_ifs
  · exact hrecord
  · exact hrecord
  · exact henter.quiet .dimScreenAll

lemma cursor (h : s.Synced) (hexact : s.registry.Exact) (hfits : s.PrimaryFits env) (hcursor : Cursor env s t) :
    t.Synced := by
  cases hcursor with
  | stays hquiet => exact h.quiet hquiet
  | @switches u dst p hquiet _ hquiet' =>
    have hfits' : u.PrimaryFits env := by
      simp only [PrimaryFits, Fits, getName, hquiet.active, hquiet.clipboards, hquiet.registry, hquiet.settings]
      exact hfits
    exact ((h.quiet hquiet).switchScreen (hquiet.registry ▸ hexact) hfits' dst p).quiet hquiet'

lemma accept (h : s.Synced) (hc : c ∉ s.registry.clientSet) (name : Name) (shape : DisplayRect)
    (cursor : Position) : (s.accept c name shape cursor).Synced := by
  refine h.congr (fun d hd => ?_) rfl h.size
  have hdc : d ≠ c := fun hdc => hc (hdc ▸ hd)
  have hname : (s.accept c name shape cursor).getName d = s.getName d := Registry.getName_update name hdc
  exact .inr ⟨hd, by simp [Server.accept, Function.update_of_ne hdc], by simp [Server.accept, Function.update_of_ne hdc],
    fun _ hid => hname ▸ hid⟩

lemma forceLeaveClient (h : s.Synced) (c : ClientId) : (s.forceLeaveClient env c).Synced := by
  have hforced := forceLeaveClient_forcedOff env s c
  refine h.congr (fun d hd => .inr ⟨?_, ?_, ?_, fun id hid => ?_⟩) hforced.clipboards (hforced.settings ▸ h.size)
  · rwa [hforced.registry] at hd
  · rw [hforced.proxies]
  · rw [hforced.proxies]
  · rwa [getName, hforced.registry]

lemma shrink (h : s.Synced) {r : Registry} (hsub : r.clientSet ⊆ s.registry.clientSet)
    (hname : ∀ c ∈ r.clientSet, ∀ id, (s.clipboards id).owner = s.getName c → (s.clipboards id).owner = r.getName c) :
    Synced { s with registry := r } :=
  h.congr (fun c hc => .inr ⟨hsub hc, rfl, rfl, hname c hc⟩) rfl h.size

lemma closeClient (h : s.Synced) (c : ClientId) : (s.closeClient env c).Synced :=
  (h.shrink (r := s.registry.closeClient c) (Registry.clientSet_removeClient_subset s.registry c)
    fun _ _ _ hid => hid.trans Registry.getName_closeClient.symm).forceLeaveClient c

lemma removeActiveClient (h : s.Synced) (c : ClientId) : (s.removeActiveClient env c).Synced := by
  rw [Server.removeActiveClient]
  split_ifs
  · exact (h.shrink (Registry.clientSet_removeClient_subset s.registry c)
      fun _ _ _ hid => hid.trans Registry.getName_removeClient.symm).forceLeaveClient c
  · exact h

lemma adoptClient (h : s.Synced) (hc : c ∉ s.registry.clientSet) (hdirty : (s.proxies c).dirty = fun _ => true) :
    (s.adoptClient env c).Synced := by
  rcases adoptClient_cases env s c with ⟨hclose, -⟩ | ⟨r, -, hadd, hquiet⟩
  · exact hclose ▸ h.closeClient c
  · obtain ⟨-, rfl⟩ := Registry.addClient_eq_some hadd
    refine quiet ?_ hquiet
    refine h.congr (fun d hd => ?_) rfl h.size
    rcases Finset.mem_insert.mp hd with rfl | hd
    · exact .inl (by simpa [modifyProxy] using hdirty)
    · have hdc : d ≠ c := fun hdc => hc (hdc ▸ hd)
      exact .inr ⟨hd, by simp [modifyProxy, Function.update_of_ne hdc], by simp [modifyProxy, Function.update_of_ne hdc],
        fun _ hid => hid⟩

lemma clipboardGrabbed (h : s.Synced) (hexact : s.registry.Exact) (m : ℕ) :
    (s.handleClipboardGrabbed c id m).Synced := by
  have hnoted : (s.modifyProxy c fun p => { p with grabs := (id, m) :: p.grabs }).Synced := by
    refine h.congr (fun d hd => .inr ⟨hd, ?_, ?_, fun _ hid => hid⟩) rfl h.size
    all_goals
      by_cases hdc : d = c
      · subst hdc
        simp [modifyProxy]
      · simp [modifyProxy, Function.update_of_ne hdc]
  have hmark : (fun d p => if d = c then Proxy.setClipboardDirty p id false else Proxy.grabClipboard p id) =
      fun d p => p.setClipboardDirty id (decide (d ≠ c)) := by
    funext d p
    by_cases hdc : d = c <;> simp [hdc, Proxy.grabClipboard]
  simp only [handleClipboardGrabbed]
  split_ifs
  · exact h
  · exact hnoted
  · rw [hmark]
    exact hnoted.markOthers hexact id _ rfl rfl

lemma reloadConfig (h : s.Synced) {config : Config}
    (hname : ∀ c ∈ (s.registry.handle (.reload config)).clientSet, ∀ id, (s.clipboards id).owner = s.getName c →
      (s.clipboards id).owner = (s.registry.handle (.reload config)).getName c) :
    (s.reloadConfig env config).Synced := by
  have hkept : (s.reloadConfig env config).proxies = s.proxies ∧
      (s.reloadConfig env config).clipboards = s.clipboards ∧
      (s.reloadConfig env config).settings.maximumClipboardSize < 2 ^ 31 := by
    simp only [Server.reloadConfig, setConfig]
    split_ifs
    · obtain ⟨hproxies, hclipboards, hsettings⟩ :=
        closeClients_kept env { s with registry := { s.registry with config := config } } config
      have hoptions := Reconfigured.processOptions
        ({ s with registry := { s.registry with config := config } }.closeClients env config)
      exact ⟨hoptions.proxies.trans hproxies, hoptions.clipboards.trans hclipboards,
        hoptions.maximumClipboardSize (by rw [hsettings]; exact h.size)⟩
    · exact ⟨rfl, rfl, h.size⟩
  refine h.congr (fun c hc => ?_) hkept.2.1 hkept.2.2
  rw [reloadConfig_registry] at hc
  refine .inr ⟨Registry.clientSet_reload_subset _ _ hc, by rw [hkept.1], by rw [hkept.1], fun id hid => ?_⟩
  rw [getName, reloadConfig_registry]
  exact hname c hc id hid

end Synced

theorem handle_synced {e : Env × Event} (h : s.Synced) (hexact : s.registry.Exact) (hhands : s.HandsOver e)
    (henabled : s.enabled e.2 = true) (hhandle : s.handle e.1 e.2 = some t) : t.Synced := by
  obtain ⟨env, e⟩ := e
  obtain ⟨-, hfits, hevent⟩ := hhands
  by_cases he : e.movesCursor
  · exact h.cursor hexact (hfits he) (handle_cursor he hhandle)
  · cases e with
    | adopt c name shape cursor =>
      have hc := (allows_of_enabled henabled).2
      apply Option.some.inj hhandle ▸ (h.accept hc name shape cursor).adoptClient hc
      simp [accept, Proxy.new]
    | disconnected c =>
      exact Option.some.inj hhandle ▸ (h.removeActiveClient c).shrink (Finset.Subset.refl _) fun _ _ _ hid => hid
    | closeTimeout c => exact Option.some.inj hhandle ▸ h.shrink (Finset.Subset.refl _) fun _ _ _ hid => hid
    | recvClipboard c id data =>
      rw [← Option.some.inj hhandle]
      refine h.congr (fun d hd => .inr ⟨hd, ?_, ?_, fun _ hid => hid⟩) rfl h.size
      all_goals
        by_cases hdc : d = c
        · subst hdc
          simp [modifyProxy, Proxy.recvClipboard]
        · simp [modifyProxy, Function.update_of_ne hdc]
    | clipboardGrabbed c id m => exact Option.some.inj hhandle ▸ h.clipboardGrabbed hexact m
    | clipboardChanged c id m =>
      have hc : c ≠ primaryClient := of_decide_eq_true henabled
      rw [← Option.some.inj hhandle, handleClipboardChanged]
      split_ifs with hmem
      · refine h.onClipboardChanged hexact fun hle => ⟨(hevent hmem hle).1, ?_⟩
        rw [clipboardOf, if_neg hc]
        rintro _ ⟨⟩
        exact (hevent hmem hle).2
      · exact h
    | reload config => exact Option.some.inj hhandle ▸ h.reloadConfig hevent
    | _ => exact absurd rfl he

lemma Initial.synced (h : Initial s) : s.Synced := by
  obtain ⟨config, name, shape, cursor, pos, enableDragDrop, -, hs⟩ := h.reconfigured
  refine ⟨fun c hc id _ => .inl ?_, fun id => ?_, hs.maximumClipboardSize ?_⟩
  · rw [hs.registry] at hc
    rw [hs.clipboards, getName, hs.registry, Finset.mem_singleton.mp hc]
    rfl
  · rw [hs.clipboards]
    rfl
  · have hdefault : (2 : ℕ) ^ 31 - 1 < 2 ^ 31 := by decide
    exact hdefault

/-- In runs in which what is handed over comes from the owner and fits, a client that is not the owner and
whose clipboard is not dirty was last given what the server has. -/
theorem clean_clipboard_in_sync (h : Reachable Initial next HandsOver s) (hc : c ∈ s.registry.clientSet)
    (hother : s.getName c ≠ (s.clipboards id).owner) (hclean : (s.proxies c).dirty id = false) :
    (s.proxies c).lastSet id = some (s.clipboards id).clipboard := by
  have hinv : s.registry.Exact ∧ s.Synced := by
    refine h.invariant (I := fun s => s.registry.Exact ∧ s.Synced) (fun s hs => ⟨?_, hs.synced⟩) ?_
    · exact hs.keyed.sound
    · rintro s e t ⟨hexact, hsynced⟩ hhands hnext
      obtain ⟨henabled, hhandle⟩ := next_handle hnext
      exact ⟨handle_registry hhandle ▸ hexact.handle (allows_of_enabled henabled) hhands.1,
        handle_synced hsynced hexact hhands henabled hhandle⟩
  exact (hinv.2.clean c hc id hclean).resolve_left (Ne.symm hother)

instance (s : Server) (id : ClipboardID) (content : Clipboard) : Decidable (s.Fits id content) :=
  inferInstanceAs (Decidable (_ ∨ _))

instance (env : Env) (s : Server) : Decidable (s.PrimaryFits env) :=
  inferInstanceAs (Decidable (_ → _ → ∀ id, _ → ∀ content ∈ env.getClipboard id, s.Fits id content))

instance (s : Server) : (e : Event) → Decidable (s.KeepsOwner e)
  | .clipboardChanged _ _ _ => inferInstanceAs (Decidable (_ → _ → _ ∧ _))
  | .reload config => inferInstanceAs (Decidable (∀ c ∈ _, ∀ id, (s.clipboards id).owner = s.getName c →
      (s.clipboards id).owner = (s.registry.handle (.reload config)).getName c))
  | .adopt _ _ _ _ | .disconnected _ | .closeTimeout _ | .info _ _ _ | .shapeChanged _ | .motionPrimary _
  | .motionSecondary _ | .buttonDown | .dragInfoSent | .screensaver _ | .switchWait | .switchToScreen _ | .toggleScreen
  | .switchInDirection _ | .lockCursorToScreen _ | .recvClipboard _ _ _ | .clipboardGrabbed _ _ _ => .isTrue trivial

instance (s : Server) (e : Env × Event) : Decidable (s.HandsOver e) := inferInstanceAs (Decidable (_ ∧ _ ∧ _))

def limitedConfig : Config :=
  let c := Config.ofScreens [['p'], ['a']]
  (c.addOption [] kOptionClipboardSharingSize 24).getD c

def textEnv (text : List UInt8) : Env :=
  { Env.plain with getClipboard := fun _ => some fun f => if f = 0 then some text else none }

def enterTwice (text text' : List UInt8) : List (Env × Event) :=
  [(.plain, .adopt 1 ['a'] ⟨0, 0, 1024, 768⟩ (0, 0)), (textEnv text, .switchToScreen ['a']),
    (.plain, .switchToScreen ['p']), (textEnv text', .switchToScreen ['a'])]

theorem clean_clipboard_in_sync_text : ∃ s, Reachable Initial next HandsOver s ∧
    (s.clipboards .clipboard).clipboard 0 = some [121, 121] ∧
    (s.proxies 1).lastSet .clipboard = some (s.clipboards .clipboard).clipboard := by
  obtain ⟨s, hreach, hmem, hother, hclean, htext⟩ : ∃ s, Reachable Initial next HandsOver s ∧
      1 ∈ s.registry.clientSet ∧ s.getName 1 ≠ (s.clipboards .clipboard).owner ∧
      (s.proxies 1).dirty .clipboard = false ∧ (s.clipboards .clipboard).clipboard 0 = some [121, 121] :=
    Reachable.exists_of_run (plain_initial limitedConfig (by decide)) (enterTwice [120] [121, 121])
      (by decide)
  exact ⟨s, hreach, htext, clean_clipboard_in_sync hreach hmem hother hclean⟩

/-- A text that is too large replaces what the server has, but the client stays clean with the old one. -/
theorem clean_clipboard_not_in_sync : ∃ s, Reachable Initial next (fun _ e => e.2.isReload = false) s ∧
    1 ∈ s.registry.clientSet ∧ s.getName 1 ≠ (s.clipboards .clipboard).owner ∧
    (s.proxies 1).dirty .clipboard = false ∧
    (s.proxies 1).lastSet .clipboard ≠ some (s.clipboards .clipboard).clipboard :=
  Reachable.exists_of_run (plain_initial limitedConfig (by decide)) (enterTwice [120] (List.replicate 20 121))
    (by decide)

end Server

end InputLeap
