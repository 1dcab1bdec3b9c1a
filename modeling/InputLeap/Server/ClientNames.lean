import InputLeap.Server.ClientKeys

/-! As long as no configuration is loaded, clients are in the map under the names that they have. -/

namespace InputLeap

open InputLeap.Lib

namespace Registry

structure Keyed (r : Registry) : Prop where
  sound : r.Exact
  key : ∀ {n c}, (n, c) ∈ r.clients.entries → n = r.getName c
  primary : primaryClient ∈ r.clientSet

variable {r : Registry} {c d : ClientId} {e : Event}

lemma clientSet_closeClient (hc : c ∉ r.clientSet) : (r.closeClient c).clientSet = r.clientSet := by
  rw [closeClient, removeClient, if_neg hc]

lemma getName_update (name : Name) (h : d ≠ c) :
    { r with names := Function.update r.names c name }.getName d = r.getName d := by
  simp only [getName, Function.update_of_ne h]

lemma addClient_eq_some {r' : Registry} (h : r.addClient c = some r') : r.clients.contains (r.getName c) = false ∧
    r' = { r with clientSet := insert c r.clientSet, clients := r.clients.insert (r.getName c) c } := by
  rw [addClient] at h
  split_ifs at h with hname
  exact ⟨by simpa using hname, (Option.some.inj h).symm⟩

lemma removeClient_kept (r : Registry) (c : ClientId) :
    (r.removeClient c).config = r.config ∧ (r.removeClient c).names = r.names := by
  rw [removeClient]
  split_ifs <;> exact ⟨rfl, rfl⟩

namespace Keyed

lemma keptKey (h : r.Keyed) (hc : c ∈ r.clientSet) : r.KeptKey c := by
  obtain ⟨n, hn⟩ := (h.sound.mem c).mp hc
  rwa [h.key hn] at hn

lemma find? (h : r.Keyed) (hc : c ∈ r.clientSet) : r.clients.find? (r.getName c) = some c :=
  OrdMap.find?_eq_some.mpr ⟨_, rfl, h.keptKey hc⟩

lemma addClient {r' : Registry} (h : r.Keyed) (hc : c ∉ r.clientSet) (hadd : r.addClient c = some r') :
    r'.Keyed := by
  have hsound := h.sound.addClient hc hadd
  obtain ⟨hname, rfl⟩ := addClient_eq_some hadd
  refine ⟨hsound, fun {n d} hn => ?_, Finset.mem_insert_of_mem h.primary⟩
  rcases (OrdMap.mem_insert hname).mp hn with hn | hn
  · obtain ⟨rfl, rfl⟩ := Prod.mk.inj hn
    rfl
  · exact h.key hn

lemma removeClient (h : r.Keyed) (hc : c ≠ primaryClient) : (r.removeClient c).Keyed := by
  by_cases hmem : c ∈ r.clientSet
  · refine ⟨h.sound.removeClient h.keptKey, fun {n d} hn => ?_, ?_⟩
    · rw [(h.key ((h.sound.mem_removeClient hmem (h.keptKey hmem)).mp hn).1 : n = r.getName d), Registry.removeClient,
        if_pos hmem]
      rfl
    · rw [Registry.removeClient, if_pos hmem]
      exact Finset.mem_erase.mpr ⟨hc.symm, h.primary⟩
  · rwa [Registry.removeClient, if_neg hmem]

lemma closeClient (h : r.Keyed) (hc : c ≠ primaryClient) : (r.closeClient c).Keyed :=
  have hr := h.removeClient hc
  ⟨⟨hr.sound.mem, hr.sound.unique⟩, hr.key, hr.primary⟩

lemma rename (h : r.Keyed) (hc : c ∉ r.clientSet) (name : Name) :
    Keyed { r with names := Function.update r.names c name } := by
  refine ⟨⟨h.sound.mem, h.sound.unique⟩, fun {n d} hn => ?_, h.primary⟩
  have hd : d ≠ c := fun hd => hc (hd ▸ (h.sound.mem d).mpr ⟨n, hn⟩)
  rw [getName_update name hd, h.key hn]

theorem handle (h : r.Keyed) (hallowed : r.Allows e) (he : e.isReload = false) : (r.handle e).Keyed := by
  cases e with
  | adopt c name shape cursor =>
    have hr := h.rename hallowed.2 name
    simp only [Registry.handle]
    split_ifs
    · cases hadd : Registry.addClient { r with names := Function.update r.names c name } c with
      | none => exact hr.closeClient hallowed.1
      | some r' => exact hr.addClient hallowed.2 hadd
    · exact hr.closeClient hallowed.1
  | disconnected c =>
    have hr := h.removeClient (c := c) hallowed
    exact ⟨⟨hr.sound.mem, hr.sound.unique⟩, hr.key, hr.primary⟩
  | closeTimeout c => exact ⟨⟨h.sound.mem, h.sound.unique⟩, h.key, h.primary⟩
  | reload config => cases he
  | _ => exact h

end Keyed

end Registry

namespace Server

variable {s : Server}

lemma Initial.keyed (h : Initial s) : s.registry.Keyed := by
  obtain ⟨config, name, hregistry⟩ := h.registry
  rw [hregistry]
  refine ⟨solo_exact config name, fun hn => ?_, Finset.mem_singleton_self _⟩
  obtain ⟨rfl, rfl⟩ := Prod.mk.inj (List.mem_singleton.mp hn)
  rfl

lemma next_keyed {e : Env × Event} {t : Server} (h : s.registry.Keyed) (he : e.2.isReload = false)
    (hnext : s.next e = some t) : t.registry.Keyed := by
  obtain ⟨henabled, hhandle⟩ := next_handle hnext
  exact handle_registry hhandle ▸ h.handle (allows_of_enabled henabled) he

end Server

end InputLeap
