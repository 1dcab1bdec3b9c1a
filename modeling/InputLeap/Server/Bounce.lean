import InputLeap.Server.Resting

/-! Whether the cursor that comes back to the local screen is sent out again where it came in. It is kept clear of the
zone along the edge of the box, and then moved onto a monitor, the edges of which lead out as well. -/

namespace InputLeap

open InputLeap.Lib DisplayGeometry Server

namespace DisplayGeometry

/-- The point of a row that is so far in from the edge at which the cursor comes in. -/
def pointAt (dir : Direction) (a : DisplayRect) (row depth : ℤ) : Position :=
  match dir with
  | .left => (a.x + a.w - 1 - depth, row)
  | .right => (a.x + depth, row)
  | .top => (row, a.y + a.h - 1 - depth)
  | _ => (row, a.y + depth)

def firstFacing (displays : List DisplayRect) (side : Direction) (row : ℤ) : Option (DisplayRect × ℕ) :=
  displays.zipIdx.find? fun (d, i) => d.spans side row && facesOut displays i d side row

/-- The row on the edge of the box where a point of the display is taken to be. -/
def rowShown (displays : List DisplayRect) (box d : DisplayRect) (i : ℕ) (zone : ℤ) (side : Direction) (p : Position) :
    ℤ :=
  if upright side then
    axisEdge box.y (box.y + box.h) d.y (d.y + d.h) zone (facesOut displays i d .top p.1 = true)
      (facesOut displays i d .bottom p.1 = true) p.2
  else
    axisEdge box.x (box.x + box.w) d.x (d.x + d.w) zone (facesOut displays i d .left p.2 = true)
      (facesOut displays i d .right p.2 = true) p.1

variable {displays : List DisplayRect} {box d : DisplayRect} {zone : ℤ} {dir side : Direction} {p : Position} {i : ℕ}
  {row n : ℤ}

lemma along_opposite (hdir : dir ≠ .noDirection) (p : Position) : along (opposite dir) p = along dir p := by
  cases dir with
  | noDirection => exact absurd rfl hdir
  | left | right | top | bottom => rfl

lemma along_pointAt (hdir : dir ≠ .noDirection) : along dir (pointAt dir box row n) = row := by
  cases dir with
  | noDirection => exact absurd rfl hdir
  | left | right | top | bottom => rfl

lemma depth_pointAt : depth dir box (pointAt dir box row n) = n := by
  cases dir <;> simp only [depth, pointAt] <;> omega

lemma pointAt_depth (hdir : dir ≠ .noDirection) (p : Position) : pointAt dir box (along dir p) (depth dir box p) = p := by
  cases dir with
  | noDirection => exact absurd rfl hdir
  | left | right | top | bottom =>
    simp only [pointAt, along, depth, upright, if_true, Bool.false_eq_true, if_false, sub_sub_cancel, add_sub_cancel]

lemma pointAt_unique (hdir : dir ≠ .noDirection) (halong : along dir p = row) (hdepth : depth dir d p = n) :
    p = pointAt dir d row n := by
  rw [← halong, ← hdepth, pointAt_depth hdir]

lemma along_toBoxEdge (hat : displayAt displays p = some (d, i)) :
    along side (toBoxEdge displays box zone p) = rowShown displays box d i zone side p := by
  rw [toBoxEdge_eq hat, along, rowShown]

lemma near_iff_depth (hdir : dir ≠ .noDirection) : d.near zone p (opposite dir) ↔ depth dir d p < zone := by
  cases dir with
  | noDirection => exact absurd rfl hdir
  | left | right | top | bottom =>
    simp only [opposite, DisplayRect.near, depth]
    omega

lemma along_of_touches {a : DisplayRect} {q : Position} (h : (side, q) ∈ touches a zone p) :
    along side q = along side p := by
  simp only [touches, List.mem_append, mem_choice, Prod.mk.injEq] at h
  rcases h with (⟨-, rfl, rfl⟩ | ⟨-, -, rfl, rfl⟩) | ⟨-, rfl, rfl⟩ | ⟨-, -, rfl, rfl⟩ <;> rfl

lemma firstFacing_mem (h : firstFacing displays side row = some (d, i)) : d ∈ displays ∧ d.spans side row = true := by
  have hpick := List.find?_some h
  simp only [Bool.and_eq_true] at hpick
  exact ⟨List.mem_of_getElem? (List.mk_mem_zipIdx_iff_getElem?.mp (List.mem_of_find?_eq_some h)), hpick.1⟩

lemma enter_firstFacing (hdir : dir ≠ .noDirection) (hn : 0 ≤ n) (hsizes : ∀ d ∈ displays, 0 < d.w ∧ 0 < d.h)
    (hat : displayAt displays (pointAt dir box row n) = none)
    (hfirst : firstFacing displays (opposite dir) row = some (d, i)) :
    enter displays box dir (pointAt dir box row n) = pointAt dir d row (min n (extent dir d - 1)) := by
  obtain ⟨hmem, hspans⟩ := firstFacing_mem hfirst
  have halong : along (opposite dir) (pointAt dir box row n) = row := by
    rw [along_opposite hdir, along_pointAt hdir]
  rw [← halong] at hfirst hspans
  rw [enter_found hat (List.ne_nil_of_mem hmem) hfirst]
  refine pointAt_unique hdir ?_ ?_
  · rw [← along_opposite hdir, along_clampInto hspans, halong]
  · have hextent : 0 < extent dir d := by
      rw [extent]
      split_ifs
      · exact (hsizes d hmem).1
      · exact (hsizes d hmem).2
    rw [depth_clampInto (hsizes d hmem), depth_pointAt]
    omega

lemma enter_nearest (hat : displayAt displays p = none) (hne : displays ≠ [])
    (hnone : firstFacing displays (opposite dir) (along (opposite dir) p) = none)
    (hnear : nearest displays p = some (d, i)) : enter displays box dir p = d.clampInto p := by
  rw [enter, if_neg (by simp [hat, hne])]
  dsimp only
  rw [firstFacing] at hnone
  rw [hnone, hnear]

end DisplayGeometry

namespace Server

variable {env : Env} {s : Server} {src : ClientId} {dir side : Direction} {p q : Position} {row n : ℤ}

/-- A motion that ends there is tried across an edge opposite to `dir`, beyond which there is a screen. -/
def BouncesBack (env : Env) (s : Server) (dir : Direction) (q : Position) : Prop :=
  ∃ t ∈ ({ s with active := primaryClient } : Server).primaryTouches env q, t.1 = opposite dir ∧
    (s.getNeighbor env primaryClient t.1 t.2).join.isSome = true

instance (dir : Direction) (q : Position) : Decidable (s.BouncesBack env dir q) :=
  inferInstanceAs (Decidable (∃ t ∈ ({ s with active := primaryClient } : Server).primaryTouches env q, t.1 = opposite dir ∧
    (s.getNeighbor env primaryClient t.1 t.2).join.isSome = true))

/-- A link leads back at the row, to a screen that is connected or not. -/
def linkedBack (env : Env) (s : Server) (dir : Direction) (row : ℤ) : Bool :=
  (s.registry.config.getNeighbor env.rnd (s.getName primaryClient) (opposite dir)
    (mapToFraction env.rnd (s.getShape primaryClient) dir (setAlong dir row (0, 0)))).1 ≠ []

def clearDepth (env : Env) (s : Server) (dir : Direction) (row rest : ℤ) : ℤ :=
  if s.linkedBack env dir row then max rest env.jumpZoneSize else rest

/-- No motion leads back from a point of a display: it is not near the edge at which the cursor comes in, or the edge is
one within the computer, or there is no screen beyond the row shown. -/
def Settled (env : Env) (s : Server) (dir : Direction) (p : Position) : Prop :=
  ∀ d i, displayAt (s.displaysOf primaryClient) p = some (d, i) → depth dir d p < env.jumpZoneSize →
    facesOut (s.displaysOf primaryClient) i d (opposite dir) (along dir p) = true →
    s.nextScreen env (opposite dir) (primaryClient, rowShown (s.displaysOf primaryClient) (s.getShape primaryClient) d i
      env.jumpZoneSize (opposite dir) p) = none

/-- The cursor comes in at a row of the box, so far in. It settles on the display that is there, or at the edge of the
first display of the row that faces out, or on the display nearest to it. -/
structure SettledEntry (env : Env) (s : Server) (dir : Direction) (row n : ℤ) : Prop where
  there : (displayAt (s.displaysOf primaryClient) (pointAt dir (s.getShape primaryClient) row n)).isSome = true →
    s.Settled env dir (pointAt dir (s.getShape primaryClient) row n)
  onRow : displayAt (s.displaysOf primaryClient) (pointAt dir (s.getShape primaryClient) row n) = none →
    ∀ d i, firstFacing (s.displaysOf primaryClient) (opposite dir) row = some (d, i) →
      s.Settled env dir (pointAt dir d row (min n (extent dir d - 1)))
  offRow : displayAt (s.displaysOf primaryClient) (pointAt dir (s.getShape primaryClient) row n) = none →
    firstFacing (s.displaysOf primaryClient) (opposite dir) row = none →
    ∀ d i, nearest (s.displaysOf primaryClient) (pointAt dir (s.getShape primaryClient) row n) = some (d, i) →
      s.Settled env dir (d.clampInto (pointAt dir (s.getShape primaryClient) row n))

/-- Where the motion comes to rest on the local screen, it is settled there once it is clear of the zone. -/
def ComesToStay (env : Env) (s : Server) (dir : Direction) (src : ClientId) (p : Position) : Prop :=
  ∀ n row rest, walk (s.carryOn env dir) n ((src, along dir p), depth dir (s.getShape src) p) =
      some ((primaryClient, row), rest) →
    s.carryOn env dir ((primaryClient, row), rest) = none →
    s.SettledEntry env dir row (s.clearDepth env dir row rest)

lemma nextScreen_isSome (c : ClientId) (p : Position) :
    (s.nextScreen env side (c, along side p)).isSome = (s.getNeighbor env c side p).join.isSome := by
  have hfraction : mapToFraction env.rnd _ side (setAlong side (along side p) _) = _ :=
    mapToFraction_setAlong (s.getShape c) (0, 0)
  rw [nextScreen, Option.isSome_map, getNeighbor, getNeighbor, hfraction]
  cases s.registry.searchNeighbor env.rnd side env.fuel (s.getName c) (mapToFraction env.rnd (s.getShape c) side p) with
  | none => rfl
  | some found =>
    cases found with
    | none => rfl
    | some next => rfl

lemma mapToFraction_opposite (hdir : dir ≠ .noDirection) (shape : DisplayRect) (p : Position) :
    mapToFraction env.rnd shape (opposite dir) p = mapToFraction env.rnd shape dir p := by
  cases dir with
  | noDirection => exact absurd rfl hdir
  | left | right | top | bottom => rfl

lemma setAlong_opposite (hdir : dir ≠ .noDirection) (row : ℤ) (p : Position) :
    setAlong (opposite dir) row p = setAlong dir row p := by
  cases dir with
  | noDirection => exact absurd rfl hdir
  | left | right | top | bottom => rfl

lemma nextScreen_of_not_linkedBack (hdir : dir ≠ .noDirection) (h : s.linkedBack env dir row = false) :
    s.nextScreen env (opposite dir) (primaryClient, row) = none := by
  rw [linkedBack, decide_eq_false_iff_not, not_not] at h
  rw [nextScreen, getNeighbor, mapToFraction_opposite hdir, setAlong_opposite hdir]
  cases env.fuel with
  | zero => rfl
  | succ fuel =>
    rw [Registry.searchNeighbor]
    dsimp only
    rw [if_pos h]
    rfl

lemma avoidJumpZone_primary (hdir : dir ≠ .noDirection) (p : Position) :
    s.avoidJumpZone env primaryClient dir p = pointAt dir (s.getShape primaryClient) (along dir p)
      (s.clearDepth env dir (along dir p) (depth dir (s.getShape primaryClient) p)) := by
  rw [clearDepth, linkedBack, mapToFraction_setAlong, avoidJumpZone, if_neg (not_not.mpr rfl), getJumpZoneSize, if_pos rfl]
  cases dir with
  | noDirection => exact absurd rfl hdir
  | left | right | top | bottom =>
    simp only [opposite, depth, along, upright, if_true, Bool.false_eq_true, if_false, pointAt]
    split_ifs <;> refine Prod.ext ?_ ?_ <;> dsimp only <;> grind

lemma primaryTouches_eq (q : Position) : ({ s with active := primaryClient } : Server).primaryTouches env q =
    touches (s.getShape primaryClient) env.jumpZoneSize (s.toBoxEdge primaryClient env.jumpZoneSize q) := by
  have hzone : getJumpZoneSize env primaryClient = env.jumpZoneSize := if_pos rfl
  rw [← hzone]
  rfl

section Local

variable (hdir : dir ≠ .noDirection) (hzone : 1 ≤ env.jumpZoneSize)
  (hshape : 2 * env.jumpZoneSize < (s.getShape primaryClient).w ∧ 2 * env.jumpZoneSize < (s.getShape primaryClient).h)
  (hlarge : ∀ d ∈ s.displaysOf primaryClient, 2 * env.jumpZoneSize < d.w ∧ 2 * env.jumpZoneSize < d.h)

include hshape in
lemma bouncesBack_iff (q : Position) : s.BouncesBack env dir q ↔
    (s.getShape primaryClient).near env.jumpZoneSize (s.toBoxEdge primaryClient env.jumpZoneSize q) (opposite dir) ∧
      (s.nextScreen env (opposite dir) (primaryClient,
        along (opposite dir) (s.toBoxEdge primaryClient env.jumpZoneSize q))).isSome = true := by
  rw [BouncesBack, primaryTouches_eq, ← touches_iff _ ⟨hshape.1.le, hshape.2.le⟩]
  generalize s.toBoxEdge primaryClient env.jumpZoneSize q = edge
  constructor
  · rintro ⟨⟨side, t⟩, hmem, rfl, hnext⟩
    refine ⟨⟨t, hmem⟩, ?_⟩
    rw [← along_of_touches hmem, nextScreen_isSome]
    exact hnext
  · rintro ⟨⟨t, hmem⟩, hnext⟩
    rw [← along_of_touches hmem, nextScreen_isSome] at hnext
    exact ⟨_, hmem, rfl, hnext⟩

include hdir hzone hshape hlarge in
lemma bouncesBack_iff_not_settled (hq : (displayAt (s.displaysOf primaryClient) q).isSome = true) :
    s.BouncesBack env dir q ↔ ¬s.Settled env dir q := by
  obtain ⟨⟨d, i⟩, hat⟩ := Option.isSome_iff_exists.mp hq
  have hsizes : ∀ d ∈ s.displaysOf primaryClient, 2 * env.jumpZoneSize ≤ d.w ∧ 2 * env.jumpZoneSize ≤ d.h :=
    fun d hd => ⟨(hlarge d hd).1.le, (hlarge d hd).2.le⟩
  rw [bouncesBack_iff hshape, toBoxEdge, near_toBoxEdge hzone hsizes (fun d hd => (mem_displaysOf hd).2) hat, near_iff_depth hdir,
    along_opposite hdir, along_toBoxEdge hat, and_assoc]
  constructor
  · rintro ⟨hnear, hout, hnext⟩ hsettled
    rw [hsettled d i hat hnear hout] at hnext
    exact absurd hnext (by simp)
  · intro hsettled
    rw [Settled] at hsettled
    push Not at hsettled
    obtain ⟨e, j, he, hnear, hout, hnext⟩ := hsettled
    obtain ⟨rfl, rfl⟩ := Prod.mk.inj (Option.some.inj (hat.symm.trans he))
    exact ⟨hnear, hout, Option.isSome_iff_ne_none.mpr hnext⟩

include hdir hshape in
lemma not_bouncesBack_of_nil (hnil : s.displaysOf primaryClient = []) (row rest : ℤ) :
    ¬s.BouncesBack env dir (pointAt dir (s.getShape primaryClient) row (s.clearDepth env dir row rest)) := by
  have hedge (q : Position) : s.toBoxEdge primaryClient env.jumpZoneSize q = q := by
    rw [toBoxEdge, hnil]
    rfl
  rw [bouncesBack_iff hshape, hedge, near_iff_depth hdir, depth_pointAt, along_opposite hdir, along_pointAt hdir]
  rintro ⟨hnear, hnext⟩
  cases hlinked : s.linkedBack env dir row with
  | true =>
    rw [clearDepth, if_pos hlinked] at hnear
    exact absurd hnear (not_lt.mpr (le_max_right _ _))
  | false =>
    rw [nextScreen_of_not_linkedBack hdir hlinked] at hnext
    exact absurd hnext (by simp)

include hdir in
lemma settledEntry_iff (hsizes : ∀ d ∈ s.displaysOf primaryClient, 0 < d.w ∧ 0 < d.h)
    (hne : s.displaysOf primaryClient ≠ []) (hn : 0 ≤ n) : s.SettledEntry env dir row n ↔
      s.Settled env dir (s.enterDisplays primaryClient dir (pointAt dir (s.getShape primaryClient) row n)) := by
  rw [enterDisplays]
  cases hat : displayAt (s.displaysOf primaryClient) (pointAt dir (s.getShape primaryClient) row n) with
  | some found =>
    rw [enter, if_pos (.inr (by simp [hat]))]
    constructor
    · exact fun h => h.there (by simp [hat])
    · exact fun h => ⟨fun _ => h, fun hoff => absurd hoff (by simp [hat]), fun hoff => absurd hoff (by simp [hat])⟩
  | none =>
    have hnot : ¬(displayAt (s.displaysOf primaryClient) (pointAt dir (s.getShape primaryClient) row n)).isSome = true := by
      simp [hat]
    cases hfirst : firstFacing (s.displaysOf primaryClient) (opposite dir) row with
    | some found =>
      obtain ⟨d, i⟩ := found
      rw [enter_firstFacing hdir hn hsizes hat hfirst]
      constructor
      · exact fun h => h.onRow hat d i hfirst
      · refine fun h => ⟨fun hon => absurd hon hnot, fun _ e j he => ?_, fun _ hnone => absurd hnone (by simp [hfirst])⟩
        obtain ⟨rfl, rfl⟩ := Prod.mk.inj (Option.some.inj (hfirst.symm.trans he))
        exact h
    | none =>
      obtain ⟨⟨d, i⟩, hnear, -⟩ := nearest_mem hne (pointAt dir (s.getShape primaryClient) row n)
      have halong : along (opposite dir) (pointAt dir (s.getShape primaryClient) row n) = row := by
        rw [along_opposite hdir, along_pointAt hdir]
      rw [enter_nearest hat hne (by rw [halong, hfirst]) hnear]
      constructor
      · exact fun h => h.offRow hat hfirst d i hnear
      · refine fun h => ⟨fun hon => absurd hon hnot, fun _ e j he => absurd (hfirst.symm.trans he) (by simp),
          fun _ _ e j he => ?_⟩
        obtain ⟨rfl, rfl⟩ := Prod.mk.inj (Option.some.inj (hnear.symm.trans he))
        exact h

end Local

theorem not_bouncesBack_iff (hzone : 1 ≤ env.jumpZoneSize)
    (hshape : 2 * env.jumpZoneSize < (s.getShape primaryClient).w ∧ 2 * env.jumpZoneSize < (s.getShape primaryClient).h)
    (hlarge : ∀ d ∈ s.displaysOf primaryClient, 2 * env.jumpZoneSize < d.w ∧ 2 * env.jumpZoneSize < d.h)
    (hdir : dir ≠ .noDirection) (hbeyond : extent dir (s.getShape src) ≤ depth dir (s.getShape src) p)
    (h : s.mapToNeighbor env src dir p = some (some (primaryClient, q))) :
    ¬s.BouncesBack env dir q ↔ s.ComesToStay env dir src p := by
  obtain ⟨n, p₀, hwalk, hend, hdepth, rfl, -⟩ := mapToNeighbor_arrival hdir hbeyond h
  have hstay : s.ComesToStay env dir src p ↔ s.SettledEntry env dir (along dir p₀)
      (s.clearDepth env dir (along dir p₀) (depth dir (s.getShape primaryClient) p₀)) := by
    constructor
    · exact fun hstay => hstay n _ _ hwalk hend
    · intro hentry m row rest hother hotherEnd
      obtain ⟨heq, rfl⟩ := Prod.mk.inj (Walk.end_unique hwalk hend hother hotherEnd)
      obtain ⟨-, rfl⟩ := Prod.mk.inj heq
      exact hentry
  have hclear : 0 ≤ s.clearDepth env dir (along dir p₀) (depth dir (s.getShape primaryClient) p₀) := by
    rw [clearDepth]
    split_ifs
    · exact le_max_of_le_left hdepth
    · exact hdepth
  rw [hstay, avoidJumpZone_primary hdir]
  by_cases hnil : s.displaysOf primaryClient = []
  · rw [enterDisplays, hnil, enter_nil]
    refine iff_of_true (not_bouncesBack_of_nil hdir hshape hnil _ _) ⟨?_, ?_, ?_⟩ <;>
      simp [hnil, displayAt, firstFacing, nearest]
  · have hsizes : ∀ d ∈ s.displaysOf primaryClient, 0 < d.w ∧ 0 < d.h := fun d hd => by
      obtain ⟨hw, hh⟩ := hlarge d hd
      omega
    generalize s.clearDepth env dir (along dir p₀) (depth dir (s.getShape primaryClient) p₀) = k at hclear ⊢
    have hmem : ∃ d ∈ s.displaysOf primaryClient, d.contains (s.enterDisplays primaryClient dir
        (pointAt dir (s.getShape primaryClient) (along dir p₀) k)) = true := enter_mem hnil hsizes dir
    rw [settledEntry_iff hdir hsizes hnil hclear]
    generalize s.enterDisplays primaryClient dir (pointAt dir (s.getShape primaryClient) (along dir p₀) k) = q at hmem ⊢
    obtain ⟨d, hd, hcontains⟩ := hmem
    have hon : (displayAt (s.displaysOf primaryClient) q).isSome = true := by
      by_contra hoff
      rw [Option.not_isSome_iff_eq_none] at hoff
      exact absurd hcontains (Bool.eq_false_iff.mp (not_contains_of_displayAt hoff hd))
    rw [bouncesBack_iff_not_settled hdir hzone hshape hlarge hon, not_not]

/-- The screen `"a"` is to the left of two monitors, the lower of which starts further in. -/
def besideMonitors : Server :=
  let c := Config.ofScreens [['p'], ['a']]
  let c := (c.connect ['a'] .right 0 1 ['p'] 0 1).getD c
  let c := (c.connect ['p'] .left 0 1 ['a'] 0 1).getD c
  let c := { c with displays := c.displays.insert ['p'] [⟨0, 0, 1920, 1080⟩, ⟨400, 1080, 1280, 800⟩] }
  ((new .plain c ['p'] ⟨0, 0, 1920, 1880⟩ (0, 0) (0, 0) false).accept 1 ['a'] ⟨0, 0, 1024, 768⟩ (0, 0)).adoptClient .plain 1

theorem not_bouncesBack_besideMonitors :
    ¬besideMonitors.BouncesBack .plain .right (1, 735) ↔ besideMonitors.ComesToStay .plain .right 1 (1024, 300) :=
  not_bouncesBack_iff (by decide) (by decide +kernel) (by decide +kernel) (by decide) (by decide +kernel)
    (by decide +kernel)

/-- The motion ends exactly at the left edge of the lower monitor, which faces out. -/
theorem bouncesBack_lowerMonitor : ¬ ∀ (env : Env) (s : Server) (dir : Direction) (src : ClientId) (p q : Position),
    1 ≤ env.jumpZoneSize →
    2 * env.jumpZoneSize < (s.getShape primaryClient).w ∧ 2 * env.jumpZoneSize < (s.getShape primaryClient).h →
    (∀ d ∈ s.displaysOf primaryClient, 2 * env.jumpZoneSize < d.w ∧ 2 * env.jumpZoneSize < d.h) →
    dir ≠ .noDirection → extent dir (s.getShape src) ≤ depth dir (s.getShape src) p →
    s.mapToNeighbor env src dir p = some (some (primaryClient, q)) → ¬s.BouncesBack env dir q := by
  intro hall
  have hstays := hall .plain besideMonitors .right 1 (1424, 600) (400, 1469) (by decide) (by decide +kernel)
    (by decide) (by decide) (by decide +kernel) (by decide +kernel)
  exact hstays (by decide +kernel)

end Server

end InputLeap
