import InputLeap.Server.Membership

/-! Whether each client is in the map of clients under one key. -/

namespace InputLeap

open InputLeap.Lib

namespace Registry

structure Exact (r : Registry) : Prop where
  mem : ∀ c, c ∈ r.clientSet ↔ ∃ n, (n, c) ∈ r.clients.entries
  unique : ∀ {n m c}, (n, c) ∈ r.clients.entries → (m, c) ∈ r.clients.entries → n = m

def KeptKey (r : Registry) (c : ClientId) : Prop := (r.getName c, c) ∈ r.clients.entries

instance (r : Registry) (c : ClientId) : Decidable (r.KeptKey c) := inferInstanceAs (Decidable (_ ∈ _))

/-- Whoever is removed by an event is in the map under the name that it has then. -/
def RemovesOwn (r : Registry) : Event → Prop
  | .disconnected c => c ∈ r.clientSet → r.KeptKey c
  | .reload config => ∀ e ∈ (r.removed config).entries, { r with config := config }.KeptKey e.1
  | _ => True

instance (r : Registry) : (e : Event) → Decidable (r.RemovesOwn e)
  | .disconnected _ => inferInstanceAs (Decidable (_ → _))
  | .reload config =>
    inferInstanceAs (Decidable (∀ e ∈ (r.removed config).entries, { r with config := config }.KeptKey e.1))
  | .adopt _ _ _ _ | .closeTimeout _ | .info _ _ _ | .shapeChanged _ | .motionPrimary _ | .motionSecondary _
  | .buttonDown | .dragInfoSent | .screensaver _ | .switchWait | .switchToScreen _ | .toggleScreen
  | .switchInDirection _ | .lockCursorToScreen _ | .recvClipboard _ _ _ | .clipboardGrabbed _ _ _
  | .clipboardChanged _ _ _ => .isTrue trivial

def Allows (r : Registry) : Event → Prop
  | .adopt c _ _ _ => c ≠ primaryClient ∧ c ∉ r.clientSet
  | .disconnected c => c ≠ primaryClient
  | _ => True

variable {r : Registry} {c d : ClientId} {e : Event}

lemma getName_removeClient : (r.removeClient c).getName d = r.getName d := by
  rw [removeClient]
  split_ifs <;> rfl

lemma getName_closeClient : (r.closeClient c).getName d = r.getName d := getName_removeClient

lemma clientSet_removeClient_subset (r : Registry) (c : ClientId) : (r.removeClient c).clientSet ⊆ r.clientSet := by
  rw [removeClient]
  split_ifs
  · exact Finset.erase_subset _ _
  · exact Finset.Subset.refl _

lemma clientSet_reload_subset (r : Registry) (config : Config) :
    (r.handle (.reload config)).clientSet ⊆ r.clientSet := by
  have hclose (es : List (ClientId × Unit)) (r : Registry) :
      (es.foldl (fun r e => r.closeClient e.1) r).clientSet ⊆ r.clientSet := by
    induction es generalizing r with
    | nil => exact Finset.Subset.refl _
    | cons e es ih => exact (ih _).trans (clientSet_removeClient_subset r e.1)
  simp only [handle]
  split_ifs
  · exact hclose _ _
  · exact Finset.Subset.refl _

namespace Exact

lemma mem_erase_iff (h : r.Exact) (hkey : r.KeptKey c) {p : Name × ClientId} (hp : p ∈ r.clients.entries) :
    p.1 = r.getName c ↔ p.2 = c := by
  constructor
  · intro hname
    exact congrArg Prod.snd (OrdMap.entry_unique hp hkey (by simpa using hname))
  · intro hc
    exact h.unique (m := r.getName c) (hc ▸ hp) hkey

theorem removeClient_entries_iff (h : r.Exact) (hc : c ∈ r.clientSet) :
    (r.removeClient c).clients.entries = r.clients.entries.filter (fun p => decide (p.2 ≠ c)) ↔ r.KeptKey c := by
  rw [removeClient, if_pos hc]
  constructor
  · intro heq
    obtain ⟨n, hn⟩ := (h.mem c).mp hc
    have hgone : (n, c) ∉ (r.clients.erase (r.getName c)).entries := by
      rw [heq]
      simp
    rw [OrdMap.mem_erase, not_and_not_right] at hgone
    have hname : n = r.getName c := hgone hn
    rwa [hname] at hn
  · intro hkey
    apply List.filter_congr
    intro p hp
    simpa using h.mem_erase_iff hkey hp

lemma mem_removeClient (h : r.Exact) (hc : c ∈ r.clientSet) (hkey : r.KeptKey c) {p : Name × ClientId} :
    p ∈ (r.removeClient c).clients.entries ↔ p ∈ r.clients.entries ∧ p.2 ≠ c := by
  rw [(h.removeClient_entries_iff hc).mpr hkey]
  simp

lemma removeClient (h : r.Exact) (hkey : c ∈ r.clientSet → r.KeptKey c) : (r.removeClient c).Exact := by
  by_cases hc : c ∈ r.clientSet
  · have hmem (p : Name × ClientId) := h.mem_removeClient hc (hkey hc) (p := p)
    refine ⟨fun d => ?_, fun hn hm => h.unique ((hmem _).mp hn).1 ((hmem _).mp hm).1⟩
    have hset : d ∈ (r.removeClient c).clientSet ↔ d ≠ c ∧ d ∈ r.clientSet := by
      rw [Registry.removeClient, if_pos hc, Finset.mem_erase]
    simp only [hset, hmem, h.mem d]
    constructor
    · rintro ⟨hd, n, hn⟩
      exact ⟨n, hn, hd⟩
    · rintro ⟨n, hn, hd⟩
      exact ⟨hd, n, hn⟩
  · rwa [Registry.removeClient, if_neg hc]

lemma addClient {r' : Registry} (h : r.Exact) (hc : c ∉ r.clientSet) (hadd : r.addClient c = some r') :
    r'.Exact := by
  rw [Registry.addClient] at hadd
  split_ifs at hadd with hname
  rw [← Option.some.inj hadd]
  have hmem {p : Name × ClientId} := OrdMap.mem_insert (v := c) (e := p) (Bool.not_eq_true _ ▸ hname)
  refine ⟨fun d => ?_, fun {n m d} hn hm => ?_⟩
  · simp only [Finset.mem_insert, hmem, Prod.mk.injEq, h.mem d]
    exact ⟨fun hd => hd.elim (fun hd => ⟨_, .inl ⟨rfl, hd⟩⟩) fun ⟨n, hn⟩ => ⟨n, .inr hn⟩,
      fun ⟨n, hn⟩ => hn.elim (fun hn => .inl hn.2) fun hn => .inr ⟨n, hn⟩⟩
  · have hnew {n : Name} (hn : (n, c) ∈ r.clients.entries) : False := hc ((h.mem c).mpr ⟨n, hn⟩)
    rcases hmem.mp hn with hn | hn <;> rcases hmem.mp hm with hm | hm
    · exact (Prod.mk.inj hn).1.trans (Prod.mk.inj hm).1.symm
    · exact (hnew ((Prod.mk.inj hn).2 ▸ hm)).elim
    · exact (hnew ((Prod.mk.inj hm).2 ▸ hn)).elim
    · exact h.unique hn hm

lemma closeClient (h : r.Exact) (hkey : c ∈ r.clientSet → r.KeptKey c) : (r.closeClient c).Exact :=
  ⟨(h.removeClient hkey).mem, (h.removeClient hkey).unique⟩

lemma keptKey_closeClient (h : r.Exact) (hkey : c ∈ r.clientSet → r.KeptKey c)
    (hd : d ∈ r.clientSet → r.KeptKey d) (hmem : d ∈ (r.closeClient c).clientSet) : (r.closeClient c).KeptKey d := by
  rw [KeptKey, getName_closeClient]
  by_cases hc : c ∈ r.clientSet
  · rw [Registry.closeClient, Registry.removeClient, if_pos hc, Finset.mem_erase] at hmem
    exact (h.mem_removeClient hc (hkey hc)).mpr ⟨hd hmem.2, hmem.1⟩
  · rw [Registry.closeClient, Registry.removeClient, if_neg hc] at hmem ⊢
    exact hd hmem

lemma closeClients (h : r.Exact) {config : Config} (hkey : ∀ e ∈ (r.removed config).entries, r.KeptKey e.1) :
    (r.closeClients config).Exact := by
  rw [Registry.closeClients]
  replace hkey : ∀ e ∈ (r.removed config).entries, e.1 ∈ r.clientSet → r.KeptKey e.1 := fun e he _ => hkey e he
  generalize (r.removed config).entries = es at hkey
  induction es generalizing r with
  | nil => exact h
  | cons e es ih =>
    have he := hkey e List.mem_cons_self
    apply ih (h.closeClient he)
    intro d hd
    exact h.keptKey_closeClient he (hkey d (List.mem_cons_of_mem e hd))

theorem handle (h : r.Exact) (hallowed : r.Allows e) (hown : r.RemovesOwn e) : (r.handle e).Exact := by
  cases e with
  | adopt c name shape cursor =>
    have hr : Exact { r with names := Function.update r.names c name } := ⟨h.mem, h.unique⟩
    have hclose := hr.closeClient (c := c) fun hc => absurd hc hallowed.2
    simp only [Registry.handle]
    split_ifs
    · cases hadd : Registry.addClient { r with names := Function.update r.names c name } c with
      | none => exact hclose
      | some r' => exact hr.addClient hallowed.2 hadd
    · exact hclose
  | disconnected c => exact ⟨(h.removeClient hown).mem, (h.removeClient hown).unique⟩
  | closeTimeout c => exact ⟨h.mem, h.unique⟩
  | reload config =>
    have hr : Exact { r with config := config } := ⟨h.mem, h.unique⟩
    simp only [Registry.handle]
    split_ifs
    · exact hr.closeClients hown
    · exact hr
  | _ => exact h

end Exact

end Registry

namespace Server

variable {s t : Server}

lemma next_handle {e : Env × Event} (h : s.next e = some t) : s.enabled e.2 = true ∧ s.handle e.1 e.2 = some t := by
  rw [next] at h
  split_ifs at h with henabled
  exact ⟨henabled, h⟩

lemma allows_of_enabled {e : Event} (h : s.enabled e = true) : s.registry.Allows e := by
  cases e with
  | adopt c name shape cursor =>
    simp only [enabled, hasProxy, Bool.and_eq_true, Bool.not_eq_true', decide_eq_true_eq, decide_eq_false_iff_not,
      not_or] at h
    exact ⟨h.1, h.2.1⟩
  | disconnected c =>
    simp only [enabled, Bool.and_eq_true, decide_eq_true_eq] at h
    exact h.1
  | _ => trivial

def solo (config : Config) (name : Name) : Registry :=
  let r : Registry := ⟨config, fun _ => name, .empty, ∅, ∅⟩
  { r with clients := r.clients.insert (r.getName primaryClient) primaryClient, clientSet := {primaryClient} }

lemma solo_removed (config : Config) (name : Name) : ((solo config name).removed config).entries = [] := by
  have hentries : (solo config name).clients.entries = [((solo config name).getName primaryClient, primaryClient)] := rfl
  by_cases h : config.isCanonicalName ((solo config name).getName primaryClient)
  · simp [Registry.removed, hentries, h, OrdMap.erase, OrdMap.empty]
  · simp [Registry.removed, hentries, h, OrdMap.erase, OrdMap.empty, OrdMap.insert, OrdMap.insertEntry]

lemma new_reconfigured (env : Env) {config : Config} {name : Name} (hscreen : config.isScreen name = true)
    (shape : DisplayRect) (cursor pos : Position) (enableDragDrop : Bool) :
    Reconfigured ({ start config name shape cursor pos enableDragDrop with registry := solo config name }.modifyProxy
      primaryClient fun p => { p with jump := p.cursor }) (new env config name shape cursor pos enableDragDrop) := by
  have hadd : (start config name shape cursor pos enableDragDrop).addClient primaryClient =
      some ({ start config name shape cursor pos enableDragDrop with registry := solo config name }.modifyProxy
        primaryClient fun p => { p with jump := p.cursor }) := rfl
  have hset (s : Server) (hs : s.registry = solo config name) : s.setConfig env config = s.processOptions := by
    have hname : s.registry.names primaryClient = name := by rw [hs]; rfl
    rw [setConfig, hname, if_pos hscreen, closeClients, hs, solo_removed]
    rfl
  rw [new, hadd]
  simp only [Option.getD_some]
  rw [hset _ rfl]
  have hlock (t : Server) : Reconfigured t { t with lockedToScreen := true } :=
    ⟨rfl, rfl, rfl, rfl, rfl, rfl, rfl, id⟩
  split_ifs
  · exact (Reconfigured.processOptions _).trans (hlock _)
  · exact Reconfigured.processOptions _

lemma Initial.reconfigured (h : Initial s) : ∃ config name shape cursor pos enableDragDrop, config.isScreen name = true ∧
    Reconfigured ({ start config name shape cursor pos enableDragDrop with registry := solo config name }.modifyProxy
      primaryClient fun p => { p with jump := p.cursor }) s := by
  obtain ⟨env, config, name, shape, cursor, pos, enableDragDrop, hscreen, rfl⟩ := h
  exact ⟨config, name, shape, cursor, pos, enableDragDrop, hscreen,
    new_reconfigured env hscreen shape cursor pos enableDragDrop⟩

lemma Initial.registry (h : Initial s) : ∃ config name, s.registry = solo config name := by
  obtain ⟨config, name, shape, cursor, pos, enableDragDrop, -, hs⟩ := h.reconfigured
  exact ⟨config, name, hs.registry⟩

lemma solo_exact (config : Config) (name : Name) : (solo config name).Exact := by
  have hentries : (solo config name).clients.entries = [((solo config name).getName primaryClient, primaryClient)] := rfl
  constructor
  · intro c
    have hset : (solo config name).clientSet = {primaryClient} := rfl
    simp [hentries, hset]
  · intro n m c hn hm
    rw [hentries, List.mem_singleton] at hn hm
    exact (Prod.mk.inj hn).1.trans (Prod.mk.inj hm).1.symm

lemma exact_of_reachable (h : Reachable Initial next (fun s e => s.registry.RemovesOwn e.2) s) : s.registry.Exact := by
  refine h.invariant (I := fun s => s.registry.Exact) (fun s hs => ?_) fun s e t hs hown hnext => ?_
  · obtain ⟨config, name, hregistry⟩ := hs.registry
    exact hregistry ▸ solo_exact config name
  · obtain ⟨henabled, hhandle⟩ := next_handle hnext
    exact handle_registry hhandle ▸ hs.handle (allows_of_enabled henabled) hown

/-- As long as clients are removed under their own keys the map is exact, and then removing a client
removes its entry and no other exactly if the client still has its key. -/
theorem clients_exact (h : Reachable Initial next (fun s e => s.registry.RemovesOwn e.2) s) :
    (∀ c, c ∈ s.registry.clientSet ↔ ∃ n, (n, c) ∈ s.registry.clients.entries) ∧
    (∀ n m c, (n, c) ∈ s.registry.clients.entries → (m, c) ∈ s.registry.clients.entries → n = m) ∧
    ∀ c ∈ s.registry.clientSet,
      (s.registry.removeClient c).clients.entries = s.registry.clients.entries.filter (fun p => decide (p.2 ≠ c)) ↔
        s.registry.KeptKey c := by
  have hexact := exact_of_reachable h
  exact ⟨hexact.mem, fun _ _ _ => hexact.unique, fun _ => hexact.removeClient_entries_iff⟩

def aliasConfig (screen : Name) : Config :=
  let c := Config.ofScreens [['p'], ['a'], ['b']]
  (c.addAlias screen ['x']).getD c

def adoptAlias : Event := .adopt 1 ['x'] ⟨0, 0, 1024, 768⟩ (0, 0)

theorem clients_exact_disconnected : ∃ s, Reachable Initial next (fun s e => s.registry.RemovesOwn e.2) s ∧
    1 ∉ s.registry.clientSet ∧ ¬ ∃ n, (n, 1) ∈ s.registry.clients.entries := by
  obtain ⟨s, hreach, hmem⟩ : ∃ s, Reachable Initial next (fun s e => s.registry.RemovesOwn e.2) s ∧
      1 ∉ s.registry.clientSet :=
    Reachable.exists_of_run (plain_initial (aliasConfig ['a']) (by decide))
      [(.plain, adoptAlias), (.plain, .reload (aliasConfig ['a'])), (.plain, .disconnected 1)] (by decide)
  exact ⟨s, hreach, hmem, ((clients_exact hreach).1 1).not.mp hmem⟩

/-- The alias means another screen when the client disconnects, so that its entry is not found. -/
theorem clients_not_exact : ∃ s, Reachable Initial next (fun _ _ => True) s ∧
    1 ∉ s.registry.clientSet ∧ (['a'], 1) ∈ s.registry.clients.entries :=
  Reachable.exists_of_run (plain_initial (aliasConfig ['a']) (by decide))
    [(.plain, adoptAlias), (.plain, .reload (aliasConfig ['b'])), (.plain, .disconnected 1)] (by decide)

end Server

end InputLeap
