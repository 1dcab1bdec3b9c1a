import InputLeap.Server.ClientNames

/-! Whether clipboard updates come from the owner. Owners are told apart by the sequence number of their
grab alone: an update with a number that is not below the owner's is taken for the owner's. -/

namespace InputLeap

open InputLeap.Lib InputLeap.Protocol

namespace Server

variable {env : Env} {s t : Server}

structure Owned (s : Server) : Prop where
  announced : ∀ c ∈ s.registry.clientSet, c ≠ primaryClient → ∀ id m, (id, m) ∈ (s.proxies c).grabs →
    (s.clipboards id).seqNum ≤ m → (s.clipboards id).owner = s.getName c
  fault : s.faults.clipboardOwner = false

/-- Clients announce what they send, and a grab is only accepted if its number is above all that other
clients have announced. -/
def GrabsInOrder (s : Server) : Event → Prop
  | .clipboardGrabbed c id m =>
    s.settings.enableClipboard = true → s.settings.maximumClipboardSize ≠ 0 → c ∈ s.registry.clientSet →
      c = primaryClient ∨ (s.clipboards id).seqNum ≤ m →
        ∀ d ∈ s.registry.clientSet, d ≠ c → d ≠ primaryClient → ∀ g ∈ (s.proxies d).grabs, g.1 = id → g.2 < m
  | .clipboardChanged c id m =>
    c ∈ s.registry.clientSet → (s.clipboards id).seqNum ≤ m → (id, m) ∈ (s.proxies c).grabs
  | _ => True

section Faults

lemma updateClipboard_faults (sender : ClientId) (id : ClipboardID) (content : Clipboard) :
    (s.updateClipboard sender id content).faults = s.faults := by
  simp only [updateClipboard]
  split_ifs
  · rfl
  · rfl
  · exact forClients_faults _ _

lemma onClipboardChanged_faults {sender : ClientId} {id : ClipboardID} {seqNum : ℕ}
    (h : (s.clipboards id).seqNum ≤ seqNum → s.registry.clients.find? (s.clipboards id).owner = some sender) :
    (s.onClipboardChanged env sender id seqNum).faults = s.faults := by
  simp only [onClipboardChanged]
  split_ifs with hold
  · rfl
  · have hcheck : (s.checkOwner sender id).faults = s.faults := by
      simp [checkOwner, h (not_lt.mp hold)]
    split
    · exact hcheck
    · rw [updateClipboard_faults, hcheck]

lemma updatePrimaryClipboards_faults (h : s.registry.Keyed) : (s.updatePrimaryClipboards env).faults = s.faults := by
  rw [updatePrimaryClipboards]
  generalize clipboardIDs = ids
  induction ids generalizing s with
  | nil => rfl
  | cons id ids ih =>
    rw [List.foldl_cons]
    split_ifs with howner
    · rw [ih, onClipboardChanged_faults]
      · intro _
        exact howner ▸ h.find? h.primary
      · rwa [SameScreens.onClipboardChanged.registry]
    · exact ih h

lemma sendClipboards_faults : s.sendClipboards.faults = s.faults := by
  rw [sendClipboards]
  generalize clipboardIDs = ids
  induction ids generalizing s with
  | nil => rfl
  | cons id ids ih =>
    rw [List.foldl_cons, ih]
    split_ifs <;> rfl

lemma switchScreen_clipboardOwner (env : Env) (h : s.registry.Keyed) (dst : ClientId) (p : Position) :
    (s.switchScreen env dst p).faults.clipboardOwner = s.faults.clipboardOwner := by
  have hleave (t : Server) (ht : t.registry.Keyed) : (t.leaveScreen env).faults = t.faults := by
    rw [leaveScreen]
    split_ifs
    · exact updatePrimaryClipboards_faults ht
    · rfl
  have henter (t : Server) : (t.enterScreen dst).faults = t.faults := by
    simp only [enterScreen]
    split_ifs
    · exact sendClipboards_faults
    · rfl
  simp only [switchScreen]
  split_ifs
  · rfl
  · rfl
  · rw [cutOver, Quiet.dimScreenAll.faults, henter, hleave (s.recordPosition dst p) h]
    rfl

end Faults

namespace Owned

lemma congr (h : s.Owned)
    (hclient : ∀ c ∈ t.registry.clientSet, (t.proxies c).grabs = [] ∨
      c ∈ s.registry.clientSet ∧ (t.proxies c).grabs = (s.proxies c).grabs ∧ t.getName c = s.getName c)
    (howner : ∀ id, (t.clipboards id).owner = (s.clipboards id).owner)
    (hseqNum : ∀ id, (t.clipboards id).seqNum = (s.clipboards id).seqNum)
    (hfault : t.faults.clipboardOwner = s.faults.clipboardOwner) : t.Owned := by
  refine ⟨fun c hc hne id m hm hle => ?_, hfault.trans h.fault⟩
  rcases hclient c hc with hnil | ⟨hmem, hgrabs, hname⟩
  · simp [hnil] at hm
  · rw [howner, hname]
    exact h.announced c hmem hne id m (hgrabs ▸ hm) (hseqNum id ▸ hle)

lemma quiet (h : s.Owned) (hquiet : Quiet s t) : t.Owned := by
  refine h.congr (fun c hc => .inr ⟨?_, (hquiet.clips c).grabs, ?_⟩) (fun id => ?_) (fun id => ?_) ?_
  · rwa [hquiet.registry] at hc
  · rw [getName, getName, hquiet.registry]
  · rw [hquiet.clipboards]
  · rw [hquiet.clipboards]
  · rw [hquiet.faults]

lemma switched (h : s.Owned) {dst : ClientId} (hswitched : Switched s dst t)
    (hfault : t.faults.clipboardOwner = s.faults.clipboardOwner) : t.Owned := by
  refine h.congr (fun c hc => .inr ⟨?_, hswitched.grabs c, ?_⟩) hswitched.owner hswitched.seqNum hfault
  · rwa [hswitched.registry] at hc
  · rw [getName, getName, hswitched.registry]

lemma cursor (h : s.Owned) (hkeyed : s.registry.Keyed) (hcursor : Cursor env s t) : t.Owned := by
  cases hcursor with
  | stays hquiet => exact h.quiet hquiet
  | @switches u dst p hquiet _ hquiet' =>
    have hfault := switchScreen_clipboardOwner env (hquiet.registry ▸ hkeyed) dst p
    exact ((h.quiet hquiet).switched (.switchScreen env u dst p) hfault).quiet hquiet'

lemma accept (h : s.Owned) {c : ClientId} (hc : c ∉ s.registry.clientSet) (name : Name) (shape : DisplayRect)
    (cursor : Position) : (s.accept c name shape cursor).Owned := by
  refine h.congr (fun d hd => .inr ⟨hd, ?_, ?_⟩) (fun _ => rfl) (fun _ => rfl) rfl
  all_goals have hdc : d ≠ c := fun hdc => hc (hdc ▸ hd)
  · simp [Server.accept, Function.update_of_ne hdc]
  · exact Registry.getName_update name hdc

lemma closeClient (h : s.Owned) {c : ClientId} (hc : c ∉ s.registry.clientSet) : (s.closeClient env c).Owned := by
  have hforced := forceLeaveClient_forcedOff env { s with registry := s.registry.closeClient c } c
  refine h.congr (fun d hd => .inr ⟨?_, ?_, ?_⟩) (fun id => ?_) (fun id => ?_)
    (congrArg Faults.clipboardOwner hforced.faults)
  · rwa [closeClient_registry, Registry.clientSet_closeClient hc] at hd
  · exact congrArg (fun proxies => (proxies d).grabs) hforced.proxies
  · rw [getName, closeClient_registry, Registry.getName_closeClient]
    rfl
  · exact congrArg (fun clipboards => (clipboards id).owner) hforced.clipboards
  · exact congrArg (fun clipboards => (clipboards id).seqNum) hforced.clipboards

lemma adoptClient (h : s.Owned) {c : ClientId} (hc : c ∉ s.registry.clientSet) (hgrabs : (s.proxies c).grabs = []) :
    (s.adoptClient env c).Owned := by
  rcases adoptClient_cases env s c with ⟨hclose, -⟩ | ⟨r, -, hadd, hquiet⟩
  · exact hclose ▸ h.closeClient hc
  · obtain ⟨-, rfl⟩ := Registry.addClient_eq_some hadd
    refine quiet ?_ hquiet
    refine h.congr (fun d hd => ?_) (fun _ => rfl) (fun _ => rfl) rfl
    rcases Finset.mem_insert.mp hd with rfl | hd
    · exact .inl (by simpa [modifyProxy] using hgrabs)
    · have hdc : d ≠ c := fun hdc => hc (hdc ▸ hd)
      exact .inr ⟨hd, by simp [modifyProxy, Function.update_of_ne hdc], rfl⟩

lemma removeActiveClient (env : Env) (h : s.Owned) (c : ClientId) : (s.removeActiveClient env c).Owned := by
  rw [Server.removeActiveClient]
  split_ifs with hmem
  · have hforced := forceLeaveClient_forcedOff env { s with registry := s.registry.removeClient c } c
    generalize { s with registry := s.registry.removeClient c }.forceLeaveClient env c = t at hforced
    have hregistry : t.registry = s.registry.removeClient c := hforced.registry
    rw [Registry.removeClient, if_pos hmem] at hregistry
    refine h.congr (fun d hd => .inr ⟨?_, ?_, ?_⟩) (fun id => ?_) (fun id => ?_)
      (congrArg Faults.clipboardOwner hforced.faults)
    · rw [hregistry] at hd
      exact Finset.mem_of_mem_erase hd
    · exact congrArg (fun proxies => (proxies d).grabs) hforced.proxies
    · rw [getName, hregistry]
      rfl
    · exact congrArg (fun clipboards => (clipboards id).owner) hforced.clipboards
    · exact congrArg (fun clipboards => (clipboards id).seqNum) hforced.clipboards
  · exact h

lemma sameScreens (h : s.Owned) (hsame : SameScreens s t)
    (hfault : t.faults.clipboardOwner = s.faults.clipboardOwner) : t.Owned := by
  refine h.congr (fun d hd => .inr ⟨?_, hsame.grabs d, ?_⟩) hsame.owner hsame.seqNum hfault
  · rwa [hsame.registry] at hd
  · rw [getName, getName, hsame.registry]

lemma grab_ignored (h : s.Owned) {c : ClientId} {id : ClipboardID} {m : ℕ} (hold : m < (s.clipboards id).seqNum) :
    (s.modifyProxy c fun p => { p with grabs := (id, m) :: p.grabs }).Owned := by
  refine ⟨fun d hd hne id' m' hm hle => ?_, h.fault⟩
  by_cases hdc : d = c
  · subst hdc
    simp only [modifyProxy, Function.update_self, List.mem_cons, Prod.mk.injEq] at hm
    rcases hm with ⟨rfl, rfl⟩ | hm
    · exact absurd hle (not_le.mpr hold)
    · exact h.announced d hd hne id' m' hm hle
  · simp only [modifyProxy, Function.update_of_ne hdc] at hm
    exact h.announced d hd hne id' m' hm hle

lemma grab_accepted (h : s.Owned) {c : ClientId} {id : ClipboardID} {m : ℕ}
    (horder : ∀ d ∈ s.registry.clientSet, d ≠ c → d ≠ primaryClient →
      ∀ g ∈ (s.proxies d).grabs, g.1 = id → g.2 < m) :
    ((s.modifyProxy c fun p => { p with grabs := (id, m) :: p.grabs }).modifyClipboard id fun _ =>
      ⟨.clear, Clipboard.clear.marshall, s.getName c, m⟩).Owned := by
  refine ⟨fun d hd hne id' m' hm hle => ?_, h.fault⟩
  by_cases hid : id' = id
  · subst hid
    simp only [modifyClipboard, Function.update_self] at hle ⊢
    by_cases hdc : d = c
    · rw [hdc]
      rfl
    · simp only [modifyClipboard, modifyProxy, Function.update_of_ne hdc] at hm
      exact absurd hle (not_le.mpr (horder d hd hdc hne (id', m') hm rfl))
  · simp only [modifyClipboard, Function.update_of_ne hid] at hle ⊢
    have hm' : (id', m') ∈ (s.proxies d).grabs := by
      by_cases hdc : d = c
      · subst hdc
        simpa [modifyClipboard, modifyProxy, hid] using hm
      · simpa [modifyClipboard, modifyProxy, Function.update_of_ne hdc] using hm
    exact h.announced d hd hne id' m' hm' hle

lemma clipboardGrabbed (h : s.Owned) {c : ClientId} {id : ClipboardID} {m : ℕ}
    (horder : s.GrabsInOrder (.clipboardGrabbed c id m)) : (s.handleClipboardGrabbed c id m).Owned := by
  simp only [handleClipboardGrabbed]
  split_ifs with hoff hold
  · exact h
  · exact h.grab_ignored hold.2
  · simp only [not_or, not_not, Bool.not_eq_true, Bool.not_eq_false'] at hoff
    obtain ⟨hshare, hsize, hc⟩ := hoff
    have haccept : c = primaryClient ∨ (s.clipboards id).seqNum ≤ m := by
      by_contra hne
      rw [not_or, not_le] at hne
      exact hold hne
    refine (h.grab_accepted (horder hshare hsize hc haccept)).sameScreens (.forClients fun d p => ?_) ?_
    · split_ifs <;> rfl
    · rw [forClients_faults]
      rfl

lemma clipboardChanged (h : s.Owned) (hkeyed : s.registry.Keyed) {c : ClientId} {id : ClipboardID} {m : ℕ}
    (hc : c ≠ primaryClient) (horder : s.GrabsInOrder (.clipboardChanged c id m)) :
    (s.handleClipboardChanged env c id m).Owned := by
  apply h.sameScreens (handleClipboardChanged_sameScreens env s c id m)
  rw [handleClipboardChanged]
  split_ifs with hmem
  · refine congrArg Faults.clipboardOwner (onClipboardChanged_faults fun hle => ?_)
    rw [h.announced c hmem hc id m (horder hmem hle) hle]
    exact hkeyed.find? hmem
  · rfl

end Owned

theorem handle_owned {e : Event} (h : s.Owned) (hkeyed : s.registry.Keyed) (hreload : e.isReload = false)
    (horder : s.GrabsInOrder e) (henabled : s.enabled e = true) (hhandle : s.handle env e = some t) : t.Owned := by
  by_cases he : e.movesCursor
  · exact h.cursor hkeyed (handle_cursor he hhandle)
  · cases e with
    | adopt c name shape cursor =>
      have hc := (allows_of_enabled henabled).2
      apply Option.some.inj hhandle ▸ (h.accept hc name shape cursor).adoptClient hc
      simp [accept, Proxy.new]
    | disconnected c =>
      have hremove := h.removeActiveClient env c
      rw [← Option.some.inj hhandle]
      exact hremove.congr (fun d hd => .inr ⟨hd, rfl, rfl⟩) (fun _ => rfl) (fun _ => rfl) rfl
    | closeTimeout c =>
      rw [← Option.some.inj hhandle]
      exact h.congr (fun d hd => .inr ⟨hd, rfl, rfl⟩) (fun _ => rfl) (fun _ => rfl) rfl
    | recvClipboard c id data =>
      exact Option.some.inj hhandle ▸ h.sameScreens (.modifyProxy fun _ => rfl) rfl
    | clipboardGrabbed c id m => exact Option.some.inj hhandle ▸ h.clipboardGrabbed horder
    | clipboardChanged c id m =>
      exact Option.some.inj hhandle ▸ h.clipboardChanged hkeyed (of_decide_eq_true henabled) horder
    | reload config => cases hreload
    | _ => exact absurd rfl he

lemma Initial.owned (h : Initial s) : s.Owned := by
  obtain ⟨config, name, shape, cursor, pos, enableDragDrop, -, hs⟩ := h.reconfigured
  refine ⟨fun c hc hne => ?_, by rw [hs.faults]; rfl⟩
  rw [hs.registry] at hc
  exact absurd (Finset.mem_singleton.mp hc) hne

/-- In runs in which clients announce what they send and grabs come in the order of their numbers, every
update that is taken comes from the owner. -/
theorem clipboard_updates_from_owner
    (h : Reachable Initial next (fun s e => e.2.isReload = false ∧ s.GrabsInOrder e.2) s) :
    s.faults.clipboardOwner = false := by
  have hinv : s.registry.Keyed ∧ s.Owned := by
    apply h.invariant (I := fun s => s.registry.Keyed ∧ s.Owned) (fun s hs => ⟨hs.keyed, hs.owned⟩)
    rintro s e t ⟨hkeyed, howned⟩ ⟨hreload, horder⟩ hnext
    obtain ⟨henabled, hhandle⟩ := next_handle hnext
    exact ⟨next_keyed hkeyed hreload hnext, handle_owned howned hkeyed hreload horder henabled hhandle⟩
  exact hinv.2.fault

instance (s : Server) : (e : Event) → Decidable (s.GrabsInOrder e)
  | .clipboardGrabbed _ _ _ =>
    inferInstanceAs (Decidable (_ → _ → _ → _ → ∀ d ∈ _, d ≠ _ → d ≠ _ → ∀ g ∈ (s.proxies d).grabs, g.1 = _ → g.2 < _))
  | .clipboardChanged _ _ _ => inferInstanceAs (Decidable (_ → _ → _ ∈ _))
  | .adopt _ _ _ _ | .disconnected _ | .closeTimeout _ | .info _ _ _ | .shapeChanged _ | .motionPrimary _
  | .motionSecondary _ | .buttonDown | .dragInfoSent | .screensaver _ | .switchWait | .switchToScreen _ | .toggleScreen
  | .switchInDirection _ | .lockCursorToScreen _ | .recvClipboard _ _ _ | .reload _ => .isTrue trivial

def grabbedByClient : List (Env × Event) :=
  [(.plain, .adopt 1 ['a'] ⟨0, 0, 1024, 768⟩ (0, 0)), (.plain, .switchToScreen ['a']),
    (.plain, .clipboardGrabbed 1 .clipboard 1)]

theorem clipboard_updates_from_owner_client : ∃ s,
    Reachable Initial next (fun s e => e.2.isReload = false ∧ s.GrabsInOrder e.2) s ∧
      (s.clipboards .clipboard).data = Clipboard.marshall (fun f => if f = 0 then some [104, 105] else none) ∧
      s.faults.clipboardOwner = false := by
  obtain ⟨s, hreach, hdata⟩ : ∃ s,
      Reachable Initial next (fun s e => e.2.isReload = false ∧ s.GrabsInOrder e.2) s ∧
        (s.clipboards .clipboard).data = Clipboard.marshall (fun f => if f = 0 then some [104, 105] else none) :=
    Reachable.exists_of_run (plain_initial (.ofScreens [['p'], ['a']]) (by decide))
      (grabbedByClient ++ [(.plain, .recvClipboard 1 .clipboard [0, 0, 0, 1, 0, 0, 0, 0, 0, 0, 0, 2, 104, 105]),
        (.plain, .clipboardChanged 1 .clipboard 1)]) (by decide)
  exact ⟨s, hreach, hdata, clipboard_updates_from_owner hreach⟩

/-- The local screen, which the cursor has not entered since, grabs the clipboard with number 0 before the
client's update arrives. -/
theorem clipboard_update_from_other : ∃ s, Reachable Initial next (fun _ e => e.2.isReload = false) s ∧
    s.faults.clipboardOwner = true :=
  Reachable.exists_of_run (plain_initial (.ofScreens [['p'], ['a']]) (by decide))
    (grabbedByClient ++ [(.plain, .clipboardGrabbed primaryClient .clipboard 0),
      (.plain, .clipboardChanged 1 .clipboard 1)]) (by decide)

end Server

end InputLeap
