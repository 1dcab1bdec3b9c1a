import InputLeap.Server.EdgeTest
import InputLeap.Server.Effects

/-! Where the cursor of another screen is after a motion: on a display of the screen that is active then, unless the
motion ends behind the last screen that it leads over. -/

namespace InputLeap

open InputLeap.Lib DisplayGeometry

namespace DisplayGeometry

def leaves (displays : List DisplayRect) (old p : Position) : Bool :=
  if displays = [] ∨ (displayAt displays p).isSome then false
  else
    match (displayAt displays old).or (nearest displays old) with
    | none => false
    | some (d, from') =>
      let side :=
        if p.1 < d.x then Direction.left
        else if d.x + d.w ≤ p.1 then .right
        else if p.2 < d.y then .top
        else .bottom
      facesOut displays from' d side (along side (d.clampInto p))

def crossed (d : DisplayRect) (p : Position) : Direction :=
  if p.1 < d.x then .left else if d.x + d.w ≤ p.1 then .right else if p.2 < d.y then .top else .bottom

def pastEdge (side : Direction) (d : DisplayRect) (p : Position) : ℤ :=
  match side with
  | .left => d.x - p.1
  | .right => p.1 - (d.x + d.w - 1)
  | .top => d.y - p.2
  | _ => p.2 - (d.y + d.h - 1)

variable {displays : List DisplayRect} {box d : DisplayRect} {old p : Position} {i : ℕ}

lemma contains_of_displayAt (h : (displayAt displays p).isSome) : ∃ d ∈ displays, d.contains p = true := by
  obtain ⟨⟨d, i⟩, hd⟩ := Option.isSome_iff_exists.mp h
  obtain ⟨hmem, hcontains⟩ := mem_of_displayAt hd
  exact ⟨d, List.mem_of_getElem? hmem, hcontains⟩

lemma not_contains_of_displayAt (hat : displayAt displays p = none) (hd : d ∈ displays) : d.contains p = false := by
  obtain ⟨i, hi⟩ := List.mem_iff_getElem?.mp hd
  have hnot := List.find?_eq_none.mp hat (d, i) (List.mk_mem_zipIdx_iff_getElem?.mpr hi)
  simpa using hnot

lemma mem_or_nearest {q : Position} (h : (displayAt displays old).or (nearest displays q) = some (d, i)) :
    d ∈ displays := by
  rcases Option.or_eq_some_iff.mp h with hat | ⟨-, hnear⟩
  · exact List.mem_of_getElem? (mem_of_displayAt hat).1
  · have hne : displays ≠ [] := by
      rintro rfl
      exact absurd hnear (by simp [nearest])
    obtain ⟨e, he, hmem⟩ := nearest_mem hne q
    obtain rfl := Option.some.inj (he.symm.trans hnear)
    exact hmem

lemma or_nearest_isSome (hne : displays ≠ []) (old q : Position) :
    ∃ e, (displayAt displays old).or (nearest displays q) = some e := by
  obtain ⟨e, he, -⟩ := nearest_mem hne q
  cases hat : displayAt displays old with
  | none => exact ⟨e, he⟩
  | some found => exact ⟨found, rfl⟩

lemma stay_mem (hne : displays ≠ []) (hsizes : ∀ d ∈ displays, 0 < d.w ∧ 0 < d.h) (old p : Position) :
    ∃ d ∈ displays, d.contains (stay displays old p) = true := by
  rw [stay]
  split_ifs with hat
  · exact contains_of_displayAt (hat.resolve_left hne)
  · obtain ⟨⟨d, i⟩, hd⟩ := or_nearest_isSome hne old p
    have hmem := mem_or_nearest hd
    rw [hd]
    exact ⟨d, hmem, contains_clampInto (hsizes d hmem) p⟩

lemma leaves_iff (hold : (displayAt displays old).or (nearest displays old) = some (d, i)) :
    leaves displays old p = true ↔ displayAt displays p = none ∧
      facesOut displays i d (crossed d p) (along (crossed d p) (d.clampInto p)) = true := by
  have hne : displays ≠ [] := List.ne_nil_of_mem (mem_or_nearest hold)
  rw [leaves, hold]
  cases hat : displayAt displays p with
  | none => simp [hne, crossed]
  | some found => simp

lemma pastEdge_leave (hold : (displayAt displays old).or (nearest displays old) = some (d, i))
    (h : leaves displays old p = true) :
    0 < pastEdge (crossed d p) d p ∧ pastEdge (crossed d p) box (leave displays box old p) = pastEdge (crossed d p) d p := by
  obtain ⟨hat, hout⟩ := (leaves_iff hold).mp h
  have hmem := mem_or_nearest hold
  have hnot := not_contains_of_displayAt hat hmem
  rw [DisplayRect.contains, decide_eq_false_iff_not] at hnot
  have hne : displays ≠ [] := List.ne_nil_of_mem hmem
  rw [leave, if_neg (by simp [hne, hat]), hold]
  dsimp only
  rw [← crossed, if_pos hout, crossed]
  split_ifs <;> simp only [pastEdge] <;> omega

end DisplayGeometry

namespace Server

variable {env : Env} {s t u : Server} {c dst : ClientId} {p q old : Position}

structure SameView (s t : Server) : Prop where
  registry : t.registry = s.registry
  pointer : t.pointer = s.pointer
  active : t.active = s.active
  shape : ∀ c, (t.proxies c).shape = (s.proxies c).shape

namespace SameView

lemma refl (s : Server) : SameView s s := ⟨rfl, rfl, rfl, fun _ => rfl⟩

lemma trans (h : SameView s t) (h' : SameView t u) : SameView s u :=
  ⟨h'.registry.trans h.registry, h'.pointer.trans h.pointer, h'.active.trans h.active,
    fun c => (h'.shape c).trans (h.shape c)⟩

lemma modifyProxy {f : Proxy → Proxy} (hf : ∀ p, (f p).shape = p.shape) : SameView s (s.modifyProxy c f) := by
  refine ⟨rfl, rfl, rfl, fun d => ?_⟩
  by_cases hd : d = c
  · subst hd
    simpa [Server.modifyProxy] using hf _
  · simp [Server.modifyProxy, Function.update_of_ne hd]

lemma foldl {α : Type} {f : Server → α → Server} (hf : ∀ s a, SameView s (f s a)) (as : List α) (s : Server) :
    SameView s (as.foldl f s) := by
  induction as generalizing s with
  | nil => exact refl s
  | cons a as ih => exact (hf s a).trans (ih (f s a))

lemma forClients {f : ClientId → Proxy → Proxy} (hf : ∀ c p, (f c p).shape = p.shape) : SameView s (s.forClients f) :=
  foldl (fun _ c => modifyProxy (hf c)) _ s

lemma dimScreenAll : SameView s s.dimScreenAll := by
  have hdim : SameView s (s.forClients fun c p => p.dimScreen (s.dimmingEnabled && decide (c ≠ s.active))) :=
    forClients fun _ _ => rfl
  rw [Server.dimScreenAll]
  split_ifs
  · exact hdim.trans (forClients fun _ _ => rfl)
  · exact hdim

lemma sendClipboards : SameView s s.sendClipboards := by
  refine foldl (fun s id => ?_) _ s
  split_ifs
  · exact refl s
  · refine modifyProxy fun p => ?_
    rw [Proxy.setClipboard]
    split_ifs <;> rfl

lemma displaysOf (h : SameView s t) (c : ClientId) : t.displaysOf c = s.displaysOf c := by
  rw [Server.displaysOf, Server.displaysOf, getShape, getShape, Server.getName, Server.getName, h.registry, h.shape]

end SameView

/-- On a display of the active screen, or on its shape if it has no list of displays. -/
def OnMonitor (s : Server) : Prop :=
  if s.displaysOf s.active = [] then (s.getShape s.active).contains s.pointer.pos = true
  else ∃ d ∈ s.displaysOf s.active, d.contains s.pointer.pos = true

instance (s : Server) : Decidable s.OnMonitor :=
  inferInstanceAs (Decidable (if s.displaysOf s.active = [] then (s.getShape s.active).contains s.pointer.pos = true
    else ∃ d ∈ s.displaysOf s.active, d.contains s.pointer.pos = true))

lemma SameView.onMonitor (h : SameView s t) : t.OnMonitor ↔ s.OnMonitor := by
  rw [OnMonitor, OnMonitor, h.active, h.displaysOf, h.pointer, getShape, getShape, h.shape]

def DisplaysSized (s : Server) : Prop := ∀ e ∈ s.registry.config.displays.entries, ∀ d ∈ e.2, 0 < d.w ∧ 0 < d.h

instance (s : Server) : Decidable s.DisplaysSized :=
  inferInstanceAs (Decidable (∀ e ∈ s.registry.config.displays.entries, ∀ d ∈ e.2, 0 < d.w ∧ 0 < d.h))

lemma moveWithin_onMonitor (hsizes : s.DisplaysSized)
    (hshape : 0 < (s.getShape s.active).w ∧ 0 < (s.getShape s.active).h) {pointer : Pointer} {w : SwitchState}
    (d : Position) : ({ s with pointer := pointer, switch := w }.moveWithin old d).OnMonitor := by
  generalize ht : ({ s with pointer := pointer, switch := w } : Server).moveWithin old d = t
  have hdisplays : t.displaysOf t.active = s.displaysOf s.active := by
    rw [← ht]
    rfl
  rw [OnMonitor, hdisplays]
  by_cases hnil : s.displaysOf s.active = []
  · rw [if_pos hnil, ← ht]
    rw [moveWithin]
    dsimp only
    rw [stayOnDisplays]
    have hnil' : ({ s with pointer := pointer, switch := w } : Server).displaysOf s.active = [] := hnil
    rw [hnil', stay, if_pos (.inl rfl), DisplayRect.contains, decide_eq_true_eq]
    simp only [getShape] at *
    split_ifs <;> omega
  · rw [if_neg hnil, ← ht]
    exact stay_mem hnil (fun d hd => (displaysOf_within hsizes hd).1) old _

/-- Leaving a screen other than the local one. -/
lemma switchScreen_view (hactive : s.active ≠ primaryClient) (dst : ClientId) (q : Position) :
    SameView { s with active := dst, pointer := ⟨s.stayOnDisplays dst q q, (0, 0), (0, 0)⟩ } (s.switchScreen env dst q) := by
  have hrecord : (s.recordPosition dst q).active = s.active := rfl
  rw [switchScreen, hrecord]
  split_ifs with hsame hleave
  · exact ⟨rfl, rfl, hsame, fun _ => rfl⟩
  · exact absurd hleave.1 hactive
  · have hleaveScreen : (s.recordPosition dst q).leaveScreen env = s.recordPosition dst q := by
      rw [leaveScreen, hrecord, if_neg fun h => hactive h.1]
    have hentered : SameView { s with active := dst, pointer := ⟨s.stayOnDisplays dst q q, (0, 0), (0, 0)⟩ }
        { s.recordPosition dst q with active := dst, seqNum := ((s.recordPosition dst q).seqNum + 1) % 2 ^ 32 } :=
      ⟨rfl, rfl, rfl, fun _ => rfl⟩
    rw [cutOver, hleaveScreen, enterScreen]
    refine SameView.trans ?_ .dimScreenAll
    dsimp only
    split_ifs
    · exact hentered.trans .sendClipboards
    · exact hentered

lemma switchScreen_onMonitor (hsizes : s.DisplaysSized) (hactive : s.active ≠ primaryClient) {pointer : Pointer}
    {w : SwitchState} (dst : ClientId) (q : Position) :
    ({ s with pointer := pointer, switch := w }.switchScreen env dst q).OnMonitor ↔
      s.displaysOf dst ≠ [] ∨ (s.getShape dst).contains q = true := by
  have hview := @switchScreen_view env { s with pointer := pointer, switch := w } hactive dst q
  rw [hview.onMonitor, OnMonitor]
  change (if s.displaysOf dst = [] then (s.getShape dst).contains (s.stayOnDisplays dst q q) = true
    else ∃ d ∈ s.displaysOf dst, d.contains (s.stayOnDisplays dst q q) = true) ↔ _
  by_cases hnil : s.displaysOf dst = []
  · rw [if_pos hnil, stayOnDisplays, hnil, stay, if_pos (.inl rfl)]
    simp
  · rw [if_neg hnil]
    exact iff_of_true (stay_mem hnil (fun d hd => (displaysOf_within hsizes hd).1) q q) (.inl hnil)

/-- The motion comes to rest on a screen with displays, or within the depth and the length of one without, clear of the
zone that it would be moved across. -/
def RestsInside (env : Env) (s : Server) (side : Direction) (src : ClientId) (p : Position) : Prop :=
  ∃ n dst a rest, walk (s.carryOn env side) n ((src, along side p), depth side (s.getShape src) p) =
      some ((dst, a), rest) ∧
    s.carryOn env side ((dst, a), rest) = none ∧
    (s.displaysOf dst ≠ [] ∨ (s.getShape dst).spans side a = true ∧ rest < extent side (s.getShape dst) ∧
      s.ClearOfZone env side (dst, a))

/-- If the motion leads off the screen and the switch is made, it comes to rest inside a screen. -/
def StaysInside (env : Env) (s : Server) (d : Position) : Prop :=
  ∀ dir, leavesBy (s.getShape s.active) (s.secondaryPoint d) = some dir →
    ∀ dst q, s.mapToNeighbor env s.active dir (s.secondaryPoint d) = some (some (dst, q)) →
    (isSwitchOkay env { s with pointer := ⟨s.secondaryPoint d, d, s.pointer.delta⟩ } (some dst) dir q
      (clampToShape (s.getShape s.active) 0 (s.secondaryPoint d))).2 = true →
    s.RestsInside env dir s.active (s.secondaryPoint d)

lemma leavesBy_beyond {a : DisplayRect} {dir : Direction} (h : leavesBy a p = some dir) :
    dir ≠ .noDirection ∧ extent dir a ≤ depth dir a p := by
  rw [leavesBy] at h
  split_ifs at h <;> obtain rfl := Option.some.inj h <;> simp [extent, depth, upright] <;> omega

lemma contains_mapToNeighbor (hsizes : s.DisplaysSized) {dir : Direction} {src : ClientId}
    (hleaves : leavesBy (s.getShape src) p = some dir) (h : s.mapToNeighbor env src dir p = some (some (dst, q))) :
    s.displaysOf dst ≠ [] ∨ (s.getShape dst).contains q = true ↔ s.RestsInside env dir src p := by
  obtain ⟨hside, hbeyond⟩ := leavesBy_beyond hleaves
  obtain ⟨n, a, rest, hwalk, hend, hinside, -⟩ := mapToNeighbor_walk hsizes hside hbeyond h
  rw [hinside, or_iff_right_of_imp .inl]
  constructor
  · exact fun hrest => ⟨n, dst, a, rest, hwalk, hend, hrest⟩
  · rintro ⟨m, dst', a', rest', hother, hotherEnd, hrest⟩
    obtain ⟨heq, rfl⟩ := Prod.mk.inj (Walk.end_unique hother hotherEnd hwalk hend)
    obtain ⟨rfl, rfl⟩ := Prod.mk.inj heq
    exact hrest

theorem secondary_onMonitor_iff (hsizes : s.DisplaysSized)
    (hshape : 0 < (s.getShape s.active).w ∧ 0 < (s.getShape s.active).h) (hactive : s.active ≠ primaryClient)
    (hrelative : ¬(s.settings.relativeMoves ∧ s.lockedToScreen)) {d : Position}
    (h : s.onMouseMoveSecondary env d = some t) :
    (t.OnMonitor ↔ s.StaysInside env d) ∧
      ∀ displays box old p e i, (displayAt displays old).or (nearest displays old) = some (e, i) →
        (leaves displays old p = true ↔ displayAt displays p = none ∧
          facesOut displays i e (crossed e p) (along (crossed e p) (e.clampInto p)) = true) ∧
        (leaves displays old p = true → 0 < pastEdge (crossed e p) e p ∧
          pastEdge (crossed e p) box (leave displays box old p) = pastEdge (crossed e p) e p) := by
  refine ⟨?_, fun displays box old p e i hold => ⟨leaves_iff hold, pastEdge_leave hold⟩⟩
  rw [onMouseMoveSecondary, if_neg (not_or.mpr ⟨hactive, hrelative⟩)] at h
  dsimp only at h
  split at h
  · -- nothing is left
    rename_i hleaves
    rw [← Option.some.inj h]
    refine iff_of_true ?_ fun dir hdir => absurd (hleaves.symm.trans hdir) (by simp)
    split_ifs <;> exact moveWithin_onMonitor hsizes hshape d
  · rename_i dir hleaves
    split at h
    · exact absurd h.symm (Option.some_ne_none _)
    · rename_i hnone
      rw [mapToNeighbor_motion (w := s.switch)] at hnone
      rw [← Option.some.inj h]
      refine iff_of_true (moveWithin_onMonitor hsizes hshape d) fun dir' hdir' dst q hmap => ?_
      obtain rfl := Option.some.inj (hleaves.symm.trans hdir')
      exact absurd (hnone.symm.trans hmap) (by simp)
    · rename_i dst q hmap
      rw [mapToNeighbor_motion (w := s.switch)] at hmap
      split_ifs at h with hokay
      · rw [← Option.some.inj h]
        refine (switchScreen_onMonitor hsizes hactive dst q).trans ?_
        refine (contains_mapToNeighbor hsizes hleaves hmap).trans ⟨fun hrest => ?_, fun hstays => ?_⟩
        · intro dir' hdir' dst' q' hmap' _
          obtain rfl := Option.some.inj (hleaves.symm.trans hdir')
          exact hrest
        · exact hstays dir hleaves dst q hmap hokay
      · rw [← Option.some.inj h]
        refine iff_of_true (moveWithin_onMonitor hsizes hshape d) fun dir' hdir' dst' q' hmap' hokay' => ?_
        obtain rfl := Option.some.inj (hleaves.symm.trans hdir')
        obtain ⟨rfl, rfl⟩ := Prod.mk.inj (Option.some.inj (Option.some.inj (hmap.symm.trans hmap')))
        exact absurd hokay' hokay

def onFirstOfTwo : Server :=
  let c := Config.ofScreens [['p'], ['a'], ['b']]
  let c := (c.connect ['a'] .right 0 1 ['b'] 0 1).getD c
  let s := ((plain c).accept 1 ['a'] ⟨0, 0, 1024, 768⟩ (0, 0)).adoptClient .plain 1
  let s := (s.accept 2 ['b'] ⟨0, 0, 800, 600⟩ (0, 0)).adoptClient .plain 2
  s.switchScreen .plain 1 (1000, 300)

theorem secondary_onMonitor_short : ∃ t, onFirstOfTwo.onMouseMoveSecondary .plain (100, 0) = some t ∧
    (t.OnMonitor ↔ onFirstOfTwo.StaysInside .plain (100, 0)) := by
  obtain ⟨t, ht⟩ : ∃ t, onFirstOfTwo.onMouseMoveSecondary .plain (100, 0) = some t :=
    Option.isSome_iff_exists.mp (by decide +kernel)
  exact ⟨t, ht, (secondary_onMonitor_iff (by decide) (by decide +kernel) (by decide +kernel)
    (by decide) ht).1⟩

/-- There is nothing to the right of the smaller screen. -/
theorem secondary_off_screen : ¬ ∀ (env : Env) (s : Server) (d : Position), s.DisplaysSized →
    0 < (s.getShape s.active).w ∧ 0 < (s.getShape s.active).h → s.active ≠ primaryClient →
    ¬(s.settings.relativeMoves ∧ s.lockedToScreen) → ∀ t ∈ s.onMouseMoveSecondary env d, t.OnMonitor := by
  intro hall
  have hinside := hall .plain onFirstOfTwo (2000, 0) (by decide) (by decide +kernel) (by decide +kernel)
    (by decide)
  exact absurd hinside (by decide +kernel)

end Server

end InputLeap
