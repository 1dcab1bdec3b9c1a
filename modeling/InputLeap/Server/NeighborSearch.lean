import InputLeap.Lib.Binary32
import InputLeap.Lib.Walk
import InputLeap.Server.Events

/-! When the search for a neighbor ends. Positions are floats and screens are finitely many, so that
a search that does not end goes in a circle. -/

namespace InputLeap

open InputLeap.Lib

namespace Registry

def hop (rnd : ℚ → ℚ) (r : Registry) (dir : Direction) (place : Name × ℚ) : Option (Name × ℚ) :=
  let (dstName, tTmp) := r.config.getNeighbor rnd place.1 dir place.2
  if dstName ≠ [] ∧ r.clients.find? dstName = none then some (dstName, tTmp) else none

variable {rnd : ℚ → ℚ} {r : Registry} {dir : Direction}

lemma searchNeighbor_eq_none_iff {fuel : ℕ} {srcName : Name} {t : ℚ} :
    r.searchNeighbor rnd dir fuel srcName t = none ↔ walk (r.hop rnd dir) fuel (srcName, t) ≠ none := by
  induction fuel generalizing srcName t with
  | zero => simp [searchNeighbor, walk]
  | succ fuel ih =>
    rw [Walk.walk_succ, searchNeighbor, hop]
    generalize r.config.getNeighbor rnd srcName dir t = next
    obtain ⟨dstName, tTmp⟩ := next
    by_cases hdst : dstName = []
    · simp [hdst]
    · cases hfind : r.clients.find? dstName with
      | none => simpa [hdst, hfind] using ih
      | some c => simp [hdst, hfind]

lemma getNeighbor_mem {c : Config} {srcName : Name} {t : ℚ} (h : (c.getNeighbor rnd srcName dir t).1 ≠ []) :
    (c.getNeighbor rnd srcName dir t).1 ∈ c.nameToCanonicalName.entries.map Prod.snd ∧
      (c.getNeighbor rnd srcName dir t).2 ∈ Set.range rnd := by
  rw [Config.getNeighbor] at h ⊢
  split at h
  · exact absurd rfl h
  · split at h
    · exact absurd rfl h
    · obtain ⟨n, hn⟩ := Config.getCanonicalName_mem h
      exact ⟨List.mem_map.mpr ⟨_, hn, rfl⟩, ⟨_, rfl⟩⟩

lemma hop_mem {place next : Name × ℚ} (h : r.hop rnd dir place = some next) :
    next ∈ {n | n ∈ r.config.nameToCanonicalName.entries.map Prod.snd} ×ˢ Set.range rnd := by
  dsimp only [hop] at h
  split_ifs at h with hnext
  exact Option.some.inj h ▸ getNeighbor_mem hnext.1

lemma searchNeighbor_ends_iff (hrnd : (Set.range rnd).Finite) {srcName : Name} {t : ℚ} :
    (∃ fuel, r.searchNeighbor rnd dir fuel srcName t ≠ none) ↔ ¬ Revisits (r.hop rnd dir) (srcName, t) := by
  have hfinite := (List.finite_toSet (r.config.nameToCanonicalName.entries.map Prod.snd)).prod hrnd
  rw [← Walk.ends_iff hfinite fun _ _ => hop_mem]
  simp only [ne_eq, searchNeighbor_eq_none_iff, not_not]

end Registry

namespace Server

def startPlace (rnd : ℚ → ℚ) (s : Server) (src : ClientId) (dir : Direction) (p : Position) : Name × ℚ :=
  (s.getName src, mapToFraction rnd (s.getShape src) dir p)

/-- The search ends exactly if the links followed through screens that are not connected never lead
back to a position on a screen at which the search has been. -/
theorem getNeighbor_ends_iff (env : Env) (s : Server) (src : ClientId) (dir : Direction) (p : Position) :
    (∃ fuel, s.getNeighbor { env with rnd := Binary32.round, fuel := fuel } src dir p ≠ none) ↔
      ¬ Revisits (s.registry.hop Binary32.round dir) (s.startPlace Binary32.round src dir p) := by
  rw [startPlace, ← Registry.searchNeighbor_ends_iff Binary32.finite_range_round]
  simp [getNeighbor]

def circleConfig : Config :=
  let c := Config.ofScreens [['p'], ['a']]
  let c := (c.connect ['p'] .right 0 1 ['a'] 0 1).getD c
  (c.connect ['a'] .right 0 1 ['a'] 0 1).getD c

lemma circleConfig_revisits : Revisits ((plain circleConfig).registry.hop Binary32.round .right)
    ((plain circleConfig).startPlace Binary32.round primaryClient .right (1920, 540)) := by
  have hcircle : ∃ b ∈ walk ((plain circleConfig).registry.hop Binary32.round .right) 1
      ((plain circleConfig).startPlace Binary32.round primaryClient .right (1920, 540)),
      walk ((plain circleConfig).registry.hop Binary32.round .right) 2
        ((plain circleConfig).startPlace Binary32.round primaryClient .right (1920, 540)) = some b := by
    decide +kernel
  obtain ⟨b, hfirst, hsecond⟩ := hcircle
  exact ⟨1, 2, b, by omega, hfirst, hsecond⟩

/-- The comment in the loop says that the search stops if the destination is the source. -/
theorem getNeighbor_endless : ¬ ∃ fuel,
    (plain circleConfig).getNeighbor { Env.plain with fuel := fuel } primaryClient .right (1920, 540) ≠ none := by
  rintro ⟨fuel, hfound⟩
  apply hfound
  rw [getNeighbor, Option.map_eq_none_iff, Registry.searchNeighbor_eq_none_iff]
  intro hend
  exact Walk.not_revisits_of_ends hend circleConfig_revisits

end Server

end InputLeap
