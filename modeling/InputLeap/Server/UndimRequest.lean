import InputLeap.Server.ClientNames

/-! A dimmed client at which someone works asks to be undimmed. The server switches to the screen with the name that
the client announced, but its clients are in the map under the names that they had when they were adopted. -/

namespace InputLeap

open InputLeap.Lib

namespace Registry

def Announced (r : Registry) : Prop :=
  ∀ c ∈ r.clientSet, c ≠ primaryClient → r.clients.find? (r.names c) = some c

/-- Removing `c` does not take away the entry under the announced name of another client. -/
def Spares (r : Registry) (c d : ClientId) : Prop :=
  c ∈ r.clientSet → d ∈ r.clientSet → d ≠ primaryClient → d ≠ c → r.getName c ≠ r.names d

instance (r : Registry) (c d : ClientId) : Decidable (r.Spares c d) := inferInstanceAs (Decidable (_ → _))

def named (r : Registry) (c : ClientId) (name : Name) : Registry := { r with names := Function.update r.names c name }

/-- A client announces the name that the configuration has for it, byte for byte, and nobody is removed under the name
that another one announced. -/
def KeepsAnnounced (r : Registry) : Event → Prop
  | .adopt c name _ _ =>
    r.config.isScreen name = true → r.clients.contains ((r.named c name).getName c) = false →
      (r.named c name).getName c = name
  | .disconnected c => ∀ d ∈ r.clientSet, r.Spares c d
  | .reload config =>
    config.isScreen (r.names primaryClient) = true → ∀ e ∈ (r.removed config).entries, ∀ d ∈ r.clientSet,
      (r.removed config).contains d = false → { r with config := config }.Spares e.1 d
  | _ => True

instance (r : Registry) : (e : Event) → Decidable (r.KeepsAnnounced e)
  | .adopt c name _ _ =>
    inferInstanceAs (Decidable (r.config.isScreen name = true →
      r.clients.contains ((r.named c name).getName c) = false → (r.named c name).getName c = name))
  | .disconnected c => inferInstanceAs (Decidable (∀ d ∈ r.clientSet, r.Spares c d))
  | .reload config =>
    inferInstanceAs (Decidable (config.isScreen (r.names primaryClient) = true → ∀ e ∈ (r.removed config).entries,
      ∀ d ∈ r.clientSet, (r.removed config).contains d = false → { r with config := config }.Spares e.1 d))
  | .closeTimeout _ | .info _ _ _ | .shapeChanged _ | .motionPrimary _ | .motionSecondary _ | .buttonDown
  | .dragInfoSent | .screensaver _ | .switchWait | .switchToScreen _ | .toggleScreen | .switchInDirection _
  | .lockCursorToScreen _ | .recvClipboard _ _ _ | .clipboardGrabbed _ _ _ | .clipboardChanged _ _ _ => .isTrue trivial

variable {r : Registry} {c d : ClientId} {e : Event}

lemma find?_removeClient {n : Name} (h : c ∈ r.clientSet → r.getName c ≠ n) :
    (r.removeClient c).clients.find? n = r.clients.find? n := by
  rw [removeClient]
  split_ifs with hc
  · exact OrdMap.find?_erase_of_ne (h hc).symm
  · rfl

lemma mem_removeClient_iff : d ∈ (r.removeClient c).clientSet ↔ d ∈ r.clientSet ∧ d ≠ c := by
  rw [removeClient]
  split_ifs with hc
  · rw [Finset.mem_erase, and_comm]
  · refine ⟨fun hd => ⟨hd, fun heq => hc (heq ▸ hd)⟩, fun hd => hd.1⟩

lemma names_removeClient : (r.removeClient c).names = r.names := (removeClient_kept r c).2

lemma Announced.removeClient (h : r.Announced) (hspares : ∀ d ∈ r.clientSet, r.Spares c d) :
    (r.removeClient c).Announced := by
  intro d hd hprimary
  obtain ⟨hmem, hne⟩ := mem_removeClient_iff.mp hd
  rw [names_removeClient, find?_removeClient fun hc => hspares d hmem hc hmem hprimary hne]
  exact h d hmem hprimary

lemma closed_spec (es : List (ClientId × Unit)) (r : Registry) :
    let t := es.foldl (fun r e => r.closeClient e.1) r
    t.names = r.names ∧ (∀ d, d ∈ t.clientSet → d ∈ r.clientSet ∧ ∀ e ∈ es, d ≠ e.1) ∧
      ∀ n, (∀ e ∈ es, e.1 ∈ r.clientSet → r.getName e.1 ≠ n) → t.clients.find? n = r.clients.find? n := by
  induction es generalizing r with
  | nil => exact ⟨rfl, fun d hd => ⟨hd, by simp⟩, fun n _ => rfl⟩
  | cons e es ih =>
    obtain ⟨hnames, hset, hfind⟩ := ih (r.closeClient e.1)
    refine ⟨hnames.trans names_removeClient, fun d hd => ?_, fun n hn => ?_⟩
    · obtain ⟨hmem, hrest⟩ := hset d hd
      obtain ⟨hmem', hne⟩ := mem_removeClient_iff.mp hmem
      exact ⟨hmem', List.forall_mem_cons.mpr ⟨hne, hrest⟩⟩
    · obtain ⟨hfirst, hrest⟩ := List.forall_mem_cons.mp hn
      rw [List.foldl_cons, hfind n fun e' he' hmem => ?_]
      · exact find?_removeClient hfirst
      · rw [getName_closeClient]
        exact hrest e' he' (mem_removeClient_iff.mp hmem).1

lemma Announced.closeClients (h : r.Announced) {config : Config}
    (hspares : ∀ e ∈ (r.removed config).entries, ∀ d ∈ r.clientSet, (r.removed config).contains d = false →
      r.Spares e.1 d) : (r.closeClients config).Announced := by
  intro d hd hprimary
  rw [Registry.closeClients] at hd ⊢
  obtain ⟨hnames, hset, hfind⟩ := closed_spec (r.removed config).entries r
  obtain ⟨hmem, hne⟩ := hset d hd
  have hkept : (r.removed config).contains d = false :=
    OrdMap.contains_eq_false.mpr fun n _ hn heq => hne _ hn heq.symm
  rw [hnames, hfind]
  · exact h d hmem hprimary
  · exact fun e he hc => hspares e he d hmem hkept hc hmem hprimary (hne e he)

lemma Announced.named (h : r.Announced) (hc : c ∉ r.clientSet) (name : Name) : (r.named c name).Announced := by
  intro d hd hprimary
  have hne : d ≠ c := fun heq => hc (heq ▸ hd)
  simp only [Registry.named, Function.update_of_ne hne]
  exact h d hd hprimary

lemma Announced.addClient {r' : Registry} (h : r.Announced) (hadd : r.addClient c = some r')
    (hname : r.getName c = r.names c) : r'.Announced := by
  obtain ⟨hnew, rfl⟩ := addClient_eq_some hadd
  intro d hd hprimary
  rcases Finset.mem_insert.mp hd with rfl | hmem
  · rw [← hname]
    exact OrdMap.find?_insert_self hnew d
  · have hfound := h d hmem hprimary
    have hne : r.names d ≠ r.getName c := by
      intro heq
      obtain ⟨n, hn, hentry⟩ := OrdMap.find?_eq_some.mp hfound
      exact OrdMap.contains_eq_false.mp hnew n d hentry (hn.trans heq)
    rw [OrdMap.find?_insert_of_ne hne]
    exact hfound

lemma Announced.closeClient (h : r.Announced) (hc : c ∉ r.clientSet) : (r.closeClient c).Announced := by
  have hr := @Announced.removeClient r c h fun d _ hmem => absurd hmem hc
  exact fun d => hr d

lemma Announced.handle (h : r.Announced) (hallowed : r.Allows e) (hkeeps : r.KeepsAnnounced e) :
    (r.handle e).Announced := by
  cases e with
  | adopt c name shape cursor =>
    have hr := h.named hallowed.2 name
    simp only [Registry.handle, Function.update_self]
    split_ifs with hscreen
    · change (((r.named c name).addClient c).getD ((r.named c name).closeClient c)).Announced
      cases hadd : (r.named c name).addClient c with
      | none => exact hr.closeClient hallowed.2
      | some r' =>
        refine hr.addClient hadd ?_
        rw [hkeeps hscreen (addClient_eq_some hadd).1]
        exact (Function.update_self c name r.names).symm
    · exact hr.closeClient hallowed.2
  | disconnected c => exact h.removeClient hkeeps
  | closeTimeout c => exact h
  | reload config =>
    have hr : Announced { r with config := config } := h
    simp only [Registry.handle]
    split_ifs with hscreen
    · exact hr.closeClients (hkeeps hscreen)
    · exact hr
  | _ => exact h

lemma find?_addClient_iff {r' : Registry} (hc : ∀ n, (n, c) ∉ r.clients.entries) (hadd : r.addClient c = some r') :
    r'.clients.find? (r'.names c) = some c ↔ r.getName c = r.names c := by
  obtain ⟨hnew, rfl⟩ := addClient_eq_some hadd
  constructor
  · intro hfound
    obtain ⟨n, hn, hentry⟩ := OrdMap.find?_eq_some.mp hfound
    rcases (OrdMap.mem_insert hnew).mp hentry with heq | hold
    · rw [← (Prod.mk.inj heq).1]
      exact hn
    · exact absurd hold (hc n)
  · intro heq
    dsimp only
    rw [← heq]
    exact OrdMap.find?_insert_self hnew c

end Registry

namespace Server

variable {s : Server}

def recvUndimRequest (s : Server) (c : ClientId) : Event := .switchToScreen (s.registry.names c)

lemma announced_initial (h : Initial s) : s.registry.Announced := by
  obtain ⟨config, name, hregistry⟩ := h.registry
  rw [hregistry]
  intro c hc hprimary
  exact absurd (Finset.mem_singleton.mp hc) hprimary

lemma announced_of_reachable (h : Reachable Initial next (fun s e => s.registry.KeepsAnnounced e.2) s) :
    s.registry.Announced := by
  refine h.invariant (I := fun s => s.registry.Announced) (fun s hs => announced_initial hs) ?_
  intro s e t hs hkeeps hnext
  obtain ⟨henabled, hhandle⟩ := next_handle hnext
  exact handle_registry hhandle ▸ hs.handle (allows_of_enabled henabled) hkeeps

lemma handle_recvUndimRequest {c : ClientId} (h : s.registry.clients.find? (s.registry.names c) = some c) (env : Env) :
    s.handle env (s.recvUndimRequest c) = some (s.jumpToScreen env c) := by
  show some (s.handleSwitchToScreen env (s.registry.names c)) = _
  rw [handleSwitchToScreen, h]

theorem undim_resolved (hs : Reachable Initial next (fun s e => s.registry.KeepsAnnounced e.2) s) :
    (∀ c ∈ s.registry.clientSet, c ≠ primaryClient → s.registry.clients.find? (s.registry.names c) = some c ∧
      ∀ env, s.handle env (s.recvUndimRequest c) = some (s.jumpToScreen env c)) ∧
    ∀ (r r' : Registry) (c : ClientId), (∀ n, (n, c) ∉ r.clients.entries) → r.addClient c = some r' →
      (r'.clients.find? (r'.names c) = some c ↔ r.getName c = r.names c) := by
  refine ⟨fun c hc hprimary => ?_, fun r r' c hc hadd => Registry.find?_addClient_iff hc hadd⟩
  have hfound := announced_of_reachable hs c hc hprimary
  exact ⟨hfound, handle_recvUndimRequest hfound⟩

theorem undim_resolved_adopted : ∃ s : Server, 1 ∈ s.registry.clientSet ∧
    s.handle .plain (s.recvUndimRequest 1) = some (s.jumpToScreen .plain 1) := by
  obtain ⟨s, hreach, hmem⟩ : ∃ s, Reachable Initial next (fun s e => s.registry.KeepsAnnounced e.2) s ∧
      1 ∈ s.registry.clientSet :=
    Reachable.exists_of_run (plain_initial (aliasConfig ['a']) (by decide))
      [(.plain, .adopt 1 ['a'] ⟨0, 0, 1024, 768⟩ (0, 0)), (.plain, .reload (aliasConfig ['b']))] (by decide)
  exact ⟨s, hmem, ((undim_resolved hreach).1 1 hmem (by decide)).2 .plain⟩

/-- Nothing is found under an alias, so that the server stays where it is. -/
theorem undim_not_resolved : ∃ s, Reachable Initial next (fun _ _ => True) s ∧ 1 ∈ s.registry.clientSet ∧
    s.registry.clients.find? (s.registry.names 1) = none :=
  Reachable.exists_of_run (plain_initial (aliasConfig ['a']) (by decide)) [(.plain, adoptAlias)] (by decide)

end Server

end InputLeap
