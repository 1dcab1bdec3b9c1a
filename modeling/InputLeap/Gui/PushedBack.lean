import InputLeap.Gui.Growth

/-! A desktop gets another size and then its own again. The neighbours that moved along with its edges move back, but for
those that an edge passes over. -/

namespace InputLeap.Gui

open InputLeap.Lib

section Edges

variable {before after d : Rect}

/-- The desktop is right of an edge that moves, or below one. -/
def MovesAlong (before after d : Rect) : Prop :=
  after.width ≠ before.width ∧ before.right ≤ d.x ∨ after.height ≠ before.height ∧ before.bottom ≤ d.y

/-- An edge that moves inwards does not take the desktop along, but it does when it moves out again. -/
def Between (before after d : Rect) : Prop :=
  after.right ≤ d.x ∧ d.x < before.right ∨ after.bottom ≤ d.y ∧ d.y < before.bottom

instance : Decidable (MovesAlong before after d) := inferInstanceAs (Decidable (_ ∨ _))

instance : Decidable (Between before after d) := inferInstanceAs (Decidable (_ ∨ _))

lemma shifted_eq_iff :
    shifted before (after.width - before.width) (after.height - before.height) d = d ↔ ¬MovesAlong before after d := by
  obtain ⟨x, y, width, height⟩ := d
  simp only [shifted, Rect.translated, MovesAlong, Rect.mk.injEq, and_true]
  split_ifs <;> omega

lemma shifted_back (hx : after.x = before.x) (hy : after.y = before.y) :
    shifted after (before.width - after.width) (before.height - after.height)
      (shifted before (after.width - before.width) (after.height - before.height) d) = d ↔ ¬Between before after d := by
  obtain ⟨x, y, width, height⟩ := d
  simp only [shifted, Rect.translated, Between, Rect.mk.injEq, and_true, Rect.right, Rect.bottom, hx, hy]
  split_ifs <;> omega

end Edges

namespace LayoutModel

variable {m : LayoutModel} {screens after : List ScreenConfig} {i : ℕ} {s t probe : ScreenConfig}

/-- The computers with the neighbours of one of them moved along with its edges. -/
def movedAlong (screens : List ScreenConfig) (i : ℕ) (s probe : ScreenConfig) : List ScreenConfig :=
  (screens.map (pushed s.desktop (probe.desktop.width - s.desktop.width) (probe.desktop.height - s.desktop.height))).set i
    probe

/-- The computers with a desktop of another size if there is room for it, else as they are. -/
def resize (screens : List ScreenConfig) (i : ℕ) (s probe : ScreenConfig) : List ScreenConfig :=
  if fits (movedAlong screens i s probe) then movedAlong screens i s probe
  else if fits (screens.set i probe) then screens.set i probe else screens

def Resized (screens : List ScreenConfig) (i : ℕ) (s probe : ScreenConfig) (after : List ScreenConfig) : Prop :=
  fits (movedAlong screens i s probe) = true ∧ after = movedAlong screens i s probe ∨
    fits (movedAlong screens i s probe) = false ∧ fits (screens.set i probe) = true ∧ after = screens.set i probe

section Places

variable {f : ScreenConfig → ScreenConfig}

lemma places_set_iff (hs : screens[i]? = some s) :
    ((screens.map f).set i s).map ScreenConfig.place = screens.map ScreenConfig.place ↔
      ∀ t ∈ screens.eraseIdx i, (f t).place = t.place := by
  obtain ⟨hi, -⟩ := List.getElem?_eq_some_iff.mp hs
  have hat (j : ℕ) : ((screens.map f).set i s)[j]? = if j = i then some s else screens[j]?.map f := by
    rw [List.getElem?_set, List.length_map, List.getElem?_map]
    by_cases hj : j = i
    · rw [if_pos hj, if_pos hj.symm, if_pos (hj ▸ hi)]
    · rw [if_neg hj, if_neg (Ne.symm hj)]
  rw [List.ext_getElem?_iff]
  constructor
  · intro h t ht
    obtain ⟨j, hj, ht⟩ := List.mem_eraseIdx_iff_getElem?.mp ht
    have hplace := h j
    rw [List.getElem?_map, List.getElem?_map, hat, if_neg hj, ht] at hplace
    exact Option.some.inj hplace
  · intro h j
    rw [List.getElem?_map, List.getElem?_map, hat]
    split_ifs with hj
    · rw [hj, hs]
    · cases ht : screens[j]? with
      | none => rfl
      | some t => exact congrArg some (h t (List.mem_eraseIdx_iff_getElem?.mpr ⟨j, hj, ht⟩))

lemma fits_congr (h : screens.map ScreenConfig.place = after.map ScreenConfig.place) : fits screens = fits after := by
  have hfits (l : List ScreenConfig) : fits l = true ↔
      (l.map ScreenConfig.place).Pairwise fun p q => p.1.intersects q.1 = false := by
    rw [fits, decide_eq_true_eq, List.pairwise_map]
    rfl
  rw [Bool.eq_iff_iff, hfits, hfits, h]

lemma place_pushed {before : Rect} {dw dh : ℤ} (hdesktop : t.desktop = s.desktop) (hdisplays : t.displays = s.displays)
    (hscale : t.scale = s.scale) :
    (pushed before dw dh t).place = s.place ↔ shifted before dw dh s.desktop = s.desktop := by
  rw [ScreenConfig.place, desktop_pushed, hdesktop]
  exact ⟨fun h => congrArg Prod.fst h, fun h => Prod.ext h (Prod.ext hdisplays hscale)⟩

lemma places_ne (hs : screens[i]? = some s) (hprobe : after[i]? = some probe) (hplace : probe.place ≠ s.place) :
    after.map ScreenConfig.place ≠ screens.map ScreenConfig.place := by
  intro h
  have hat := congrArg (·[i]?) h
  simp only [List.getElem?_map, hs, hprobe, Option.map_some] at hat
  exact hplace (Option.some.inj hat)

end Places

section Back

lemma resized_getElem? (hs : screens[i]? = some s) (h : Resized screens i s probe after) : after[i]? = some probe := by
  obtain ⟨hi, -⟩ := List.getElem?_eq_some_iff.mp hs
  rcases h with ⟨-, rfl⟩ | ⟨-, -, rfl⟩
  · simp [movedAlong, hi]
  · simp [hi]

lemma pushed_eq (h : ¬MovesAlong s.desktop probe.desktop t.desktop) :
    pushed s.desktop (probe.desktop.width - s.desktop.width) (probe.desktop.height - s.desktop.height) t = t := by
  obtain ⟨hwidth, hheight⟩ := not_or.mp h
  have hx : (if s.desktop.right ≤ t.desktop.x then t.x + (probe.desktop.width - s.desktop.width) else t.x) = t.x := by
    split_ifs <;> omega
  have hy : (if s.desktop.bottom ≤ t.desktop.y then t.y + (probe.desktop.height - s.desktop.height) else t.y) = t.y := by
    split_ifs <;> omega
  rw [pushed, hx, hy]

lemma movedAlong_unmoved (hs : screens[i]? = some s)
    (hnone : ∀ t ∈ screens.eraseIdx i, ¬MovesAlong s.desktop probe.desktop t.desktop) :
    movedAlong screens i s probe = screens.set i probe := by
  obtain ⟨hi, -⟩ := List.getElem?_eq_some_iff.mp hs
  refine List.ext_getElem? fun j => ?_
  rw [movedAlong, List.getElem?_set, List.getElem?_set, List.length_map, List.getElem?_map]
  split_ifs with hj
  · rfl
  · cases ht : screens[j]? with
    | none => rfl
    | some t =>
      have hunmoved := hnone t (List.mem_eraseIdx_iff_getElem?.mpr ⟨j, Ne.symm hj, ht⟩)
      rw [Option.map_some, pushed_eq hunmoved]

lemma resized_self (hs : screens[i]? = some s) (h : Resized screens i s s after) : after = screens := by
  have hnone : ∀ t ∈ screens.eraseIdx i, ¬MovesAlong s.desktop s.desktop t.desktop := by
    intro t _
    simp [MovesAlong]
  obtain ⟨hi, rfl⟩ := List.getElem?_eq_some_iff.mp hs
  rcases h with ⟨-, rfl⟩ | ⟨-, -, rfl⟩
  · rw [movedAlong_unmoved hs hnone, List.set_getElem_self]
  · rw [List.set_getElem_self]

lemma movedAlong_back (hs : screens[i]? = some s) (hx : probe.x = s.x) (hy : probe.y = s.y) :
    (movedAlong (movedAlong screens i s probe) i probe s).map ScreenConfig.place = screens.map ScreenConfig.place ↔
      ∀ t ∈ screens.eraseIdx i, ¬Between s.desktop probe.desktop t.desktop := by
  have hx' : probe.desktop.x = s.desktop.x := by simp [ScreenConfig.desktop_eq, hx]
  have hy' : probe.desktop.y = s.desktop.y := by simp [ScreenConfig.desktop_eq, hy]
  have htwice : movedAlong (movedAlong screens i s probe) i probe s =
      (screens.map (pushed probe.desktop (s.desktop.width - probe.desktop.width)
        (s.desktop.height - probe.desktop.height) ∘
          pushed s.desktop (probe.desktop.width - s.desktop.width) (probe.desktop.height - s.desktop.height))).set i s := by
    rw [movedAlong, movedAlong, List.map_set, List.set_set, List.map_map]
  rw [htwice, places_set_iff hs]
  refine forall₂_congr fun t ht => ?_
  rw [Function.comp_apply, ← shifted_back hx' hy', ScreenConfig.place, desktop_pushed, desktop_pushed]
  exact ⟨fun h => congrArg Prod.fst h, fun h => Prod.ext h rfl⟩

def FallsBack (screens : List ScreenConfig) (i : ℕ) (s probe : ScreenConfig) : Prop :=
  fits screens = true ∧
    if fits (movedAlong screens i s probe) = true ∧
        ∃ t ∈ screens.eraseIdx i, MovesAlong s.desktop probe.desktop t.desktop then
      ∀ t ∈ screens.eraseIdx i, ¬Between s.desktop probe.desktop t.desktop
    else (∀ t ∈ screens.eraseIdx i, ¬MovesAlong probe.desktop s.desktop t.desktop) ∨
      fits (movedAlong screens i probe s) = false

instance : Decidable (FallsBack screens i s probe) := inferInstanceAs (Decidable (_ ∧ ite _ _ _))

lemma back_of_moved (hs : screens[i]? = some s) (hx : probe.x = s.x) (hy : probe.y = s.y)
    (hplace : probe.place ≠ s.place)
    (hmoves : ∃ t ∈ screens.eraseIdx i, MovesAlong s.desktop probe.desktop t.desktop) :
    (resize (movedAlong screens i s probe) i probe s).map ScreenConfig.place = screens.map ScreenConfig.place ↔
      fits screens = true ∧ ∀ t ∈ screens.eraseIdx i, ¬Between s.desktop probe.desktop t.desktop := by
  obtain ⟨hi, -⟩ := List.getElem?_eq_some_iff.mp hs
  have hback := movedAlong_back hs hx hy
  constructor
  · intro h
    rw [resize] at h
    split_ifs at h with hfits hfits'
    · exact ⟨(fits_congr h).symm.trans hfits, hback.mp h⟩
    · rw [movedAlong, List.set_set, places_set_iff hs] at h
      obtain ⟨t, ht, hmoves⟩ := hmoves
      exact absurd hmoves (shifted_eq_iff.mp ((place_pushed rfl rfl rfl).mp (h t ht)))
    · exact absurd h (places_ne hs (by simp [movedAlong, hi]) hplace)
  · rintro ⟨hfits, hnone⟩
    have hplaces := hback.mpr hnone
    rw [resize, if_pos ((fits_congr hplaces).trans hfits), hplaces]

lemma back_of_stayed (hs : screens[i]? = some s) (hplace : probe.place ≠ s.place) :
    (resize (screens.set i probe) i probe s).map ScreenConfig.place = screens.map ScreenConfig.place ↔
      fits screens = true ∧ ((∀ t ∈ screens.eraseIdx i, ¬MovesAlong probe.desktop s.desktop t.desktop) ∨
        fits (movedAlong screens i probe s) = false) := by
  obtain ⟨hi, rfl⟩ := List.getElem?_eq_some_iff.mp hs
  have hmoved : movedAlong (screens.set i probe) i probe screens[i] = movedAlong screens i probe screens[i] := by
    rw [movedAlong, List.map_set, List.set_set, movedAlong]
  have hset : (screens.set i probe).set i screens[i] = screens := by
    rw [List.set_set, List.set_getElem_self]
  have hback : (movedAlong screens i probe screens[i]).map ScreenConfig.place = screens.map ScreenConfig.place ↔
      ∀ t ∈ screens.eraseIdx i, ¬MovesAlong probe.desktop screens[i].desktop t.desktop := by
    rw [movedAlong, places_set_iff hs]
    exact forall₂_congr fun t ht => (place_pushed rfl rfl rfl).trans shifted_eq_iff
  rw [resize, hmoved, hset]
  split_ifs with hfits hfits'
  · rw [hback]
    refine ⟨fun h => ⟨(fits_congr (hback.mpr h)).symm.trans hfits, .inl h⟩, fun h => h.2.resolve_right ?_⟩
    simp [hfits]
  · simp [hfits, hfits']
  · exact iff_of_false (places_ne hs (by simp [hi]) hplace) fun h => hfits' h.1

lemma resized_back (hs : screens[i]? = some s) (hx : probe.x = s.x) (hy : probe.y = s.y) (hplace : probe.place ≠ s.place)
    (hresized : Resized screens i s probe after) :
    (resize after i probe s).map ScreenConfig.place = screens.map ScreenConfig.place ↔ FallsBack screens i s probe := by
  rw [FallsBack]
  rcases hresized with ⟨hfits, rfl⟩ | ⟨hfits, -, rfl⟩
  · split_ifs with hmoves
    · exact back_of_moved hs hx hy hplace hmoves.2
    · have hnone : ∀ t ∈ screens.eraseIdx i, ¬MovesAlong s.desktop probe.desktop t.desktop :=
        fun t ht h => hmoves ⟨hfits, t, ht, h⟩
      rw [movedAlong_unmoved hs hnone]
      exact back_of_stayed hs hplace
  · rw [if_neg (by simp [hfits])]
    exact back_of_stayed hs hplace

end Back

end LayoutModel

end InputLeap.Gui
