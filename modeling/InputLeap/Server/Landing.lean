import InputLeap.Lib.Walk
import InputLeap.Server.Events
import InputLeap.Server.ReadInvariants
import Mathlib.Tactic.FieldSimp
import Mathlib.Tactic.Linarith

/-! Where the cursor lands beyond the edge of a screen, with positions on edges in exact arithmetic. The depth of a
position in a screen is measured from the edge at which the cursor comes in. -/

namespace InputLeap

open InputLeap.Lib DisplayGeometry

namespace CellEdge

instance (e : CellEdge) : Decidable e.Proper :=
  decidable_of_iff (e.side ≠ .noDirection ∧ 0 ≤ e.first ∧ e.first < e.second ∧ e.second ≤ 1)
    ⟨fun h => ⟨h.1, h.2.1, h.2.2.1, h.2.2.2⟩, fun h => ⟨h.side, h.nonneg, h.lt, h.le_one⟩⟩

variable {src dst : CellEdge} {x : ℚ}

lemma fraction_mem (hsrc : src.Proper) (hdst : dst.Proper) (hx : src.isInside x = true) :
    0 ≤ dst.inverseTransform id (src.transform id x) ∧ dst.inverseTransform id (src.transform id x) < 1 := by
  obtain ⟨hfirst, hsecond⟩ := of_decide_eq_true hx
  have hlength : 0 < src.second - src.first := sub_pos.mpr hsrc.lt
  have hdstLength : 0 < dst.second - dst.first := sub_pos.mpr hdst.lt
  have hnonneg : 0 ≤ (x - src.first) / (src.second - src.first) := div_nonneg (sub_nonneg.mpr hfirst) hlength.le
  have hlt : (x - src.first) / (src.second - src.first) < 1 := (div_lt_one hlength).mpr (by linarith)
  have hscaled := mul_lt_mul_of_pos_right hlt hdstLength
  have hle := hdst.le_one
  simp only [inverseTransform, transform, id_eq]
  constructor
  · exact add_nonneg (mul_nonneg hnonneg hdstLength.le) hdst.nonneg
  · linarith

end CellEdge

instance (c : Cell) : Decidable c.LinksInv :=
  decidable_of_iff
    ((∀ e ∈ c.neighbors.entries, e.1.name = [] ∧ e.1.Proper ∧ e.2.Proper ∧ e.2.side = e.1.side) ∧
      ∀ d ∈ c.neighbors.entries, ∀ e ∈ c.neighbors.entries, d.1.side = e.1.side → d.1.first < e.1.first →
        d.1.second ≤ e.1.first)
    ⟨fun h => ⟨h.1, h.2⟩, fun h => ⟨h.proper, h.disjoint⟩⟩

lemma Cell.mem_getLink {c : Cell} {side : Direction} {t : ℚ} {src dst : CellEdge}
    (h : c.getLink side t = some (src, dst)) :
    (src, dst) ∈ c.neighbors.entries ∧ src.side = side ∧ src.isInside t = true := by
  rw [getLink] at h
  split at h
  · exact absurd h.symm (Option.some_ne_none _)
  · rename_i src' dst' hlast
    split_ifs at h with hside
    obtain ⟨rfl, rfl⟩ := Prod.mk.inj (Option.some.inj h)
    exact ⟨List.mem_of_mem_filter (List.mem_of_getLast? hlast), hside⟩

lemma Config.getNeighbor_fraction {c : Config} (hlinks : ∀ e ∈ c.map.entries, e.2.LinksInv) {srcName : Name}
    {side : Direction} {t : ℚ} (h : (c.getNeighbor id srcName side t).1 ≠ []) :
    0 ≤ (c.getNeighbor id srcName side t).2 ∧ (c.getNeighbor id srcName side t).2 < 1 ∧ side ≠ .noDirection := by
  rw [getNeighbor] at h ⊢
  split at h
  · exact absurd rfl h
  · rename_i cell hcell
    split at h
    · exact absurd rfl h
    · rename_i src dst hlink
      obtain ⟨n, -, hmem⟩ := OrdMap.find?_eq_some.mp hcell
      obtain ⟨hentry, rfl, hinside⟩ := Cell.mem_getLink hlink
      obtain ⟨-, hsrc, hdst, -⟩ := (hlinks _ hmem).proper _ hentry
      have hfraction := CellEdge.fraction_mem hsrc hdst hinside
      exact ⟨hfraction.1, hfraction.2, hsrc.side⟩

lemma Registry.searchNeighbor_fraction {r : Registry} (hlinks : ∀ e ∈ r.config.map.entries, e.2.LinksInv)
    {side : Direction} {fuel : ℕ} {srcName : Name} {t : ℚ} {c : ClientId} {f : ℚ}
    (h : r.searchNeighbor id side fuel srcName t = some (some (c, f))) :
    0 ≤ f ∧ f < 1 ∧ side ≠ .noDirection ∧ c ∈ r.clients.entries.map Prod.snd := by
  induction fuel generalizing srcName t with
  | zero => exact absurd h.symm (Option.some_ne_none _)
  | succ fuel ih =>
    rw [searchNeighbor] at h
    have hfraction : (r.config.getNeighbor id srcName side t).1 ≠ [] → _ := Config.getNeighbor_fraction hlinks
    generalize r.config.getNeighbor id srcName side t = next at h hfraction
    obtain ⟨dstName, tTmp⟩ := next
    dsimp only at h hfraction
    split_ifs at h with hdst
    · cases h
    · split at h
      · rename_i c' hfind
        cases h
        obtain ⟨n, -, hmem⟩ := OrdMap.find?_eq_some.mp hfind
        obtain ⟨hnonneg, hlt, hside⟩ := hfraction hdst
        exact ⟨hnonneg, hlt, hside, List.mem_map.mpr ⟨_, hmem, rfl⟩⟩
      · exact ih h

lemma truncate_mem {f : ℚ} (hnonneg : 0 ≤ f) (hlt : f < 1) {n : ℤ} (hn : 0 < n) :
    0 ≤ truncate (f * n) ∧ truncate (f * n) < n := by
  have hcast : (0 : ℚ) < n := Int.cast_pos.mpr hn
  have hprod : 0 ≤ f * n := mul_nonneg hnonneg hcast.le
  rw [truncate, if_pos hprod]
  refine ⟨Int.floor_nonneg.mpr hprod, Int.floor_lt.mpr ?_⟩
  calc f * n < 1 * n := mul_lt_mul_of_pos_right hlt hcast
    _ = n := one_mul _

namespace DisplayGeometry

variable {displays : List DisplayRect} {box : DisplayRect} {p : Position}

lemma mem_of_zipIdx {d : DisplayRect × ℕ} (h : d ∈ displays.zipIdx) : d.1 ∈ displays :=
  List.mem_of_getElem? (List.mk_mem_zipIdx_iff_getElem?.mp h)

lemma contains_clampInto {d : DisplayRect} (hd : 0 < d.w ∧ 0 < d.h) (p : Position) :
    d.contains (d.clampInto p) = true := by
  rw [DisplayRect.contains, DisplayRect.clampInto, decide_eq_true_eq]
  omega

lemma exists_foldl_some {α : Type} {f : Option α → α → Option α}
    (hf : ∀ best d, f (some best) d = some best ∨ f (some best) d = some d) (ds : List α) (best : α) :
    ∃ d ∈ best :: ds, ds.foldl f (some best) = some d := by
  induction ds generalizing best with
  | nil => exact ⟨best, List.mem_singleton_self _, rfl⟩
  | cons d ds ih =>
    rw [List.foldl_cons]
    obtain hbest | hd := hf best d
    · obtain ⟨d', hd', heq⟩ := ih best
      rw [hbest]
      refine ⟨d', ?_, heq⟩
      rcases List.mem_cons.mp hd' with rfl | hd'
      · exact List.mem_cons_self
      · exact List.mem_cons_of_mem _ (List.mem_cons_of_mem _ hd')
    · obtain ⟨d', hd', heq⟩ := ih d
      rw [hd]
      exact ⟨d', List.mem_cons_of_mem _ hd', heq⟩

lemma nearest_mem (h : displays ≠ []) (p : Position) : ∃ d, nearest displays p = some d ∧ d.1 ∈ displays := by
  cases hzip : displays.zipIdx with
  | nil => exact absurd (List.zipIdx_eq_nil_iff.mp hzip) h
  | cons d ds =>
    rw [nearest, hzip, List.foldl_cons]
    refine (exists_foldl_some ?_ ds d).imp fun d' hd' => ⟨hd'.2, mem_of_zipIdx (hzip ▸ hd'.1)⟩
    intro best d
    dsimp only
    split_ifs
    · exact .inr rfl
    · exact .inl rfl

lemma enter_mem (h : displays ≠ []) (hsizes : ∀ d ∈ displays, 0 < d.w ∧ 0 < d.h) (dir : Direction) :
    ∃ d ∈ displays, d.contains (enter displays box dir p) = true := by
  rw [enter]
  split_ifs with hat
  · obtain ⟨⟨d, i⟩, hd⟩ := Option.isSome_iff_exists.mp (hat.resolve_left h)
    rw [displayAt] at hd
    exact ⟨d, mem_of_zipIdx (List.mem_of_find?_eq_some hd), by simpa using List.find?_some hd⟩
  · dsimp only
    split
    · rename_i d i hd
      have hmem := mem_of_zipIdx (List.mem_of_find?_eq_some hd)
      exact ⟨d, hmem, contains_clampInto (hsizes d hmem) _⟩
    · obtain ⟨d, hd, hmem⟩ := nearest_mem h p
      rw [hd]
      exact ⟨d.1, hmem, contains_clampInto (hsizes d.1 hmem) _⟩

lemma enter_nil (box : DisplayRect) (dir : Direction) (p : Position) : enter [] box dir p = p := by
  rw [enter, if_pos (.inl rfl)]

end DisplayGeometry

namespace Server

def setAlong (side : Direction) (a : ℤ) (p : Position) : Position := if upright side then (p.1, a) else (a, p.2)

def extent (side : Direction) (shape : DisplayRect) : ℤ := if upright side then shape.w else shape.h

def depth (side : Direction) (shape : DisplayRect) (p : Position) : ℤ :=
  match side with
  | .left => shape.x + shape.w - 1 - p.1
  | .right => p.1 - shape.x
  | .top => shape.y + shape.h - 1 - p.2
  | _ => p.2 - shape.y

def depthIn (side : Direction) (shape : DisplayRect) (p : Position) : ℤ := depth side { shape with x := 0, y := 0 } p

def InAlong (side : Direction) (shape : DisplayRect) (p : Position) : Prop := shape.spans side (along side p) = true

/-- The connected screen that follows another one at a position along the edge, and the position there. -/
def nextScreen (env : Env) (s : Server) (side : Direction) (place : ClientId × ℤ) : Option (ClientId × ℤ) :=
  (getNeighbor env s place.1 side (setAlong side place.2 (0, 0))).join.map fun (c, p) => (c, along side p)

/-- A screen that is not as deep as the motion is crossed, if there is one behind it. -/
def carryOn (env : Env) (s : Server) (side : Direction) (at' : (ClientId × ℤ) × ℤ) : Option ((ClientId × ℤ) × ℤ) :=
  if extent side (s.getShape at'.1.1) ≤ at'.2 then
    (s.nextScreen env side at'.1).map fun next => (next, at'.2 - extent side (s.getShape at'.1.1))
  else none

structure Sound (s : Server) : Prop where
  links : ∀ e ∈ s.registry.config.map.entries, e.2.LinksInv
  displays : ∀ e ∈ s.registry.config.displays.entries, ∀ d ∈ e.2, 0 < d.w ∧ 0 < d.h
  sizes : ∀ e ∈ s.registry.clients.entries, 0 < (s.getShape e.2).w ∧ 0 < (s.getShape e.2).h

instance (s : Server) : Decidable s.Sound :=
  decidable_of_iff
    ((∀ e ∈ s.registry.config.map.entries, e.2.LinksInv) ∧
      (∀ e ∈ s.registry.config.displays.entries, ∀ d ∈ e.2, 0 < d.w ∧ 0 < d.h) ∧
      ∀ e ∈ s.registry.clients.entries, 0 < (s.getShape e.2).w ∧ 0 < (s.getShape e.2).h)
    ⟨fun h => ⟨h.1, h.2.1, h.2.2⟩, fun h => ⟨h.links, h.displays, h.sizes⟩⟩

variable {env : Env} {s : Server} {side : Direction} {p : Position}

lemma contains_iff {shape : DisplayRect} (hside : side ≠ .noDirection) :
    shape.contains p = true ↔ InAlong side shape p ∧ 0 ≤ depth side shape p ∧ depth side shape p < extent side shape := by
  rw [DisplayRect.contains, decide_eq_true_eq, InAlong]
  cases side with
  | noDirection => exact absurd rfl hside
  | left | right | top | bottom =>
    simp only [DisplayRect.spans, along, upright, depth, extent, decide_eq_true_eq, if_true, Bool.false_eq_true, if_false]
    omega

lemma along_setAlong (a : ℤ) : along side (setAlong side a p) = a := by
  rw [along, setAlong]
  split_ifs <;> rfl

lemma mapToFraction_setAlong (shape : DisplayRect) (q : Position) :
    mapToFraction env.rnd shape side (setAlong side (along side p) q) = mapToFraction env.rnd shape side p := by
  cases side <;> rfl

lemma mapToPixel_eq (shape : DisplayRect) (f : ℚ) (q : Position) (hside : side ≠ .noDirection) :
    mapToPixel env.rnd shape side f p =
      setAlong side (along side (mapToPixel env.rnd shape side f q)) p := by
  cases side with
  | noDirection => exact absurd rfl hside
  | left | right | top | bottom => rfl

lemma nextScreen_eq_none {src : ClientId} (h : s.getNeighbor env src side p = some none) :
    s.nextScreen env side (src, along side p) = none := by
  have hfraction : mapToFraction env.rnd _ side (setAlong side (along side p) _) = _ :=
    mapToFraction_setAlong (s.getShape src) (0, 0)
  obtain ⟨found, hsearch, hfound⟩ := Option.map_eq_some_iff.mp h
  rw [nextScreen, getNeighbor, hfraction, hsearch]
  rw [Option.map_eq_none_iff] at hfound
  rw [hfound]
  rfl

lemma getNeighbor_place (hside : side ≠ .noDirection) {src dst : ClientId} {q : Position}
    (h : s.getNeighbor env src side p = some (some (dst, q))) :
    s.nextScreen env side (src, along side p) = some (dst, along side q) ∧ q = setAlong side (along side q) p := by
  have hfraction : mapToFraction env.rnd _ side (setAlong side (along side p) _) = _ :=
    mapToFraction_setAlong (s.getShape src) (0, 0)
  obtain ⟨found, hsearch, hfound⟩ := Option.map_eq_some_iff.mp h
  obtain ⟨⟨c, f⟩, rfl, heq⟩ := Option.map_eq_some_iff.mp hfound
  obtain ⟨rfl, rfl⟩ := Prod.mk.inj heq
  refine ⟨?_, mapToPixel_eq _ _ p hside⟩
  rw [nextScreen, getNeighbor, hfraction, hsearch]
  change some (c, along side (mapToPixel env.rnd (s.getShape c) side f _)) = _
  rw [mapToPixel_eq _ _ p hside, along_setAlong]

lemma getNeighbor_inAlong (hrnd : env.rnd = id) (hs : s.Sound) {src dst : ClientId} {q : Position}
    (h : s.getNeighbor env src side p = some (some (dst, q))) : side ≠ .noDirection ∧ InAlong side (s.getShape dst) q := by
  obtain ⟨found, hsearch, hfound⟩ := Option.map_eq_some_iff.mp h
  obtain ⟨⟨c, f⟩, rfl, heq⟩ := Option.map_eq_some_iff.mp hfound
  obtain ⟨rfl, rfl⟩ := Prod.mk.inj heq
  rw [hrnd] at hsearch
  obtain ⟨hnonneg, hlt, hside, hmem⟩ := Registry.searchNeighbor_fraction hs.links hsearch
  obtain ⟨e, he, rfl⟩ := List.mem_map.mp hmem
  obtain ⟨hw, hh⟩ := hs.sizes e he
  have hpixelW := truncate_mem hnonneg hlt hw
  have hpixelH := truncate_mem hnonneg hlt hh
  refine ⟨hside, ?_⟩
  rw [InAlong, hrnd]
  cases side with
  | noDirection => exact absurd rfl hside
  | left | right | top | bottom =>
    simp only [DisplayRect.spans, along, upright, mapToPixel, decide_eq_true_eq, if_true, Bool.false_eq_true,
      if_false, id_eq]
    omega

lemma depthIn_onNext (hside : side ≠ .noDirection) (prev shape : DisplayRect) :
    depthIn side shape (onNext side prev shape p) = depthIn side prev p - extent side prev ∧
      along side (onNext side prev shape p) = along side p := by
  cases side with
  | noDirection => exact absurd rfl hside
  | left | right | top | bottom =>
    simp only [depthIn, depth, onNext, extent, along, upright, if_true, Bool.false_eq_true, if_false, and_true]
    omega

lemma reached_iff (hside : side ≠ .noDirection) (shape : DisplayRect) :
    reached side shape p = true ↔ depthIn side shape p < extent side shape := by
  cases side with
  | noDirection => exact absurd rfl hside
  | left | right | top | bottom =>
    simp only [reached, depthIn, depth, extent, upright, decide_eq_true_eq, if_true, Bool.false_eq_true, if_false]
    omega

lemma depthIn_setAlong (shape : DisplayRect) (a : ℤ) : depthIn side shape (setAlong side a p) = depthIn side shape p := by
  cases side <;> rfl

lemma skipScreens_walk (hside : side ≠ .noDirection) {fuel : ℕ} {prev : DisplayRect} {dst dst' : ClientId} {q : Position}
    (hdepth : extent side prev ≤ depthIn side prev p) (h : s.skipScreens env side fuel prev dst p = some (dst', q)) :
    ∃ n, walk (s.carryOn env side) n ((dst, along side p), depthIn side prev p - extent side prev) =
        some ((dst', along side q), depthIn side (s.getShape dst') q) ∧
      s.carryOn env side ((dst', along side q), depthIn side (s.getShape dst') q) = none ∧
      0 ≤ depthIn side (s.getShape dst') q := by
  induction fuel generalizing prev dst p with
  | zero => exact absurd h.symm (Option.some_ne_none _)
  | succ fuel ih =>
    obtain ⟨hon, halong⟩ := depthIn_onNext (p := p) hside prev (s.getShape dst)
    rw [skipScreens] at h
    generalize onNext side prev (s.getShape dst) p = p' at h hon halong
    rw [← hon, ← halong]
    have hnonneg : 0 ≤ depthIn side (s.getShape dst) p' := hon ▸ sub_nonneg.mpr hdepth
    split_ifs at h with hreached
    · obtain ⟨rfl, rfl⟩ := Prod.mk.inj (Option.some.inj h)
      refine ⟨0, rfl, ?_, hnonneg⟩
      rw [carryOn, if_neg (not_le.mpr ((reached_iff hside _).mp hreached))]
    · rw [reached_iff hside, not_lt] at hreached
      split at h
      · exact absurd h.symm (Option.some_ne_none _)
      · rename_i hnone
        obtain ⟨rfl, rfl⟩ := Prod.mk.inj (Option.some.inj h)
        refine ⟨0, rfl, ?_, hnonneg⟩
        rw [carryOn, if_pos hreached, nextScreen_eq_none hnone]
        rfl
      · rename_i next p'' hnext
        obtain ⟨hplace, hset⟩ := getNeighbor_place hside hnext
        have hsame : depthIn side (s.getShape dst) p'' = depthIn side (s.getShape dst) p' := by
          rw [hset, depthIn_setAlong]
        obtain ⟨n, hwalk, hend⟩ := ih (hsame ▸ hreached) h
        refine ⟨n + 1, ?_, hend⟩
        rw [Walk.walk_succ, carryOn, if_pos hreached, hplace, ← hsame]
        exact hwalk

lemma skipScreens_inAlong (hrnd : env.rnd = id) (hs : s.Sound) (hside : side ≠ .noDirection) {fuel : ℕ}
    {prev : DisplayRect} {dst dst' : ClientId} {q : Position} (hdst : InAlong side (s.getShape dst) p)
    (h : s.skipScreens env side fuel prev dst p = some (dst', q)) : InAlong side (s.getShape dst') q := by
  induction fuel generalizing prev dst p with
  | zero => exact absurd h.symm (Option.some_ne_none _)
  | succ fuel ih =>
    have halong := (depthIn_onNext (p := p) hside prev (s.getShape dst)).2
    rw [skipScreens] at h
    generalize onNext side prev (s.getShape dst) p = p' at h halong
    rw [InAlong, ← halong, ← InAlong] at hdst
    split_ifs at h with hreached
    · obtain ⟨rfl, rfl⟩ := Prod.mk.inj (Option.some.inj h)
      exact hdst
    · split at h
      · exact absurd h.symm (Option.some_ne_none _)
      · obtain ⟨rfl, rfl⟩ := Prod.mk.inj (Option.some.inj h)
        exact hdst
      · rename_i next p'' hnext
        exact ih (getNeighbor_inAlong hrnd hs hnext).2 h

lemma foldl_min_le {α : Type} (f : α → ℤ) (as : List α) (n : ℤ) :
    as.foldl (fun n a => min n (f a)) n ≤ n ∧ ∀ a ∈ as, as.foldl (fun n a => min n (f a)) n ≤ f a := by
  induction as generalizing n with
  | nil => exact ⟨le_rfl, fun _ h => absurd h List.not_mem_nil⟩
  | cons a as ih =>
    obtain ⟨hstart, hrest⟩ := ih (min n (f a))
    exact ⟨hstart.trans (min_le_left _ _), List.forall_mem_cons.mpr ⟨hstart.trans (min_le_right _ _), hrest⟩⟩

lemma le_foldl_max {α : Type} (f : α → ℤ) (as : List α) (n : ℤ) :
    n ≤ as.foldl (fun n a => max n (f a)) n ∧ ∀ a ∈ as, f a ≤ as.foldl (fun n a => max n (f a)) n := by
  induction as generalizing n with
  | nil => exact ⟨le_rfl, fun _ h => absurd h List.not_mem_nil⟩
  | cons a as ih =>
    obtain ⟨hstart, hrest⟩ := ih (max n (f a))
    exact ⟨(le_max_left _ _).trans hstart, List.forall_mem_cons.mpr ⟨(le_max_right _ _).trans hstart, hrest⟩⟩

lemma mem_displaysOf {c : ClientId} {d : DisplayRect} (hd : d ∈ s.displaysOf c) :
    (∃ given ∈ s.registry.config.displays.entries, ∃ e ∈ given.2, e.w = d.w ∧ e.h = d.h) ∧
      (s.getShape c).x ≤ d.x ∧ (s.getShape c).y ≤ d.y ∧ d.x + d.w ≤ (s.getShape c).x + (s.getShape c).w ∧
      d.y + d.h ≤ (s.getShape c).y + (s.getShape c).h := by
  rw [displaysOf] at hd
  dsimp only at hd
  split at hd
  · exact absurd hd List.not_mem_nil
  · rename_i given hgiven
    split at hd
    · exact absurd hd List.not_mem_nil
    · exact absurd hd List.not_mem_nil
    · rename_i front rest _
      split_ifs at hd with hbox
      · obtain ⟨hleft, htop, hright, hbottom⟩ := hbox
        obtain ⟨e, he, rfl⟩ := List.mem_map.mp hd
        obtain ⟨n, -, hentry⟩ := OrdMap.find?_eq_some.mp hgiven
        have hx := (foldl_min_le DisplayRect.x (front :: rest) front.x).2 e he
        have hy := (foldl_min_le DisplayRect.y (front :: rest) front.y).2 e he
        have hxw := (le_foldl_max (fun d : DisplayRect => d.x + d.w) (front :: rest) 0).2 e he
        have hyh := (le_foldl_max (fun d : DisplayRect => d.y + d.h) (front :: rest) 0).2 e he
        rw [hleft] at hx
        rw [htop] at hy
        rw [hright] at hxw
        rw [hbottom] at hyh
        refine ⟨⟨_, hentry, e, he, rfl, rfl⟩, ?_⟩
        dsimp only
        omega
      · exact absurd hd List.not_mem_nil

lemma displaysOf_within (hsizes : ∀ e ∈ s.registry.config.displays.entries, ∀ d ∈ e.2, 0 < d.w ∧ 0 < d.h)
    {c : ClientId} {d : DisplayRect} (hd : d ∈ s.displaysOf c) :
    (0 < d.w ∧ 0 < d.h) ∧ ∀ p, d.contains p = true → (s.getShape c).contains p = true := by
  obtain ⟨⟨given, hgiven, e, he, hw, hh⟩, hx, hy, hxw, hyh⟩ := mem_displaysOf hd
  have hsize := hsizes given hgiven e he
  rw [hw, hh] at hsize
  refine ⟨hsize, fun p hp => ?_⟩
  rw [DisplayRect.contains, decide_eq_true_eq] at hp ⊢
  omega

lemma contains_enterDisplays (hsizes : ∀ e ∈ s.registry.config.displays.entries, ∀ d ∈ e.2, 0 < d.w ∧ 0 < d.h)
    {c : ClientId} (q : Position) :
    (s.getShape c).contains (s.enterDisplays c side q) = true ↔
      s.displaysOf c ≠ [] ∨ (s.getShape c).contains q = true := by
  by_cases hdisplays : s.displaysOf c = []
  · rw [enterDisplays, hdisplays, enter_nil]
    simp
  · rw [enterDisplays]
    obtain ⟨d, hd, hcontains⟩ := enter_mem hdisplays (fun d hd => (displaysOf_within hsizes hd).1) side
    exact iff_of_true ((displaysOf_within hsizes hd).2 _ hcontains) (.inl hdisplays)

/-- Where the cursor comes to rest, it is not moved out again to keep clear of the zone at the far edge of the local
screen. -/
def ClearOfZone (env : Env) (s : Server) (side : Direction) (place : ClientId × ℤ) : Prop :=
  place.1 = primaryClient →
    (s.registry.config.getNeighbor env.rnd (s.getName place.1) (opposite side)
      (mapToFraction env.rnd (s.getShape place.1) side (setAlong side place.2 (0, 0)))).1 ≠ [] →
    env.jumpZoneSize < extent side (s.getShape place.1)

/-- The motion comes to rest in the depth of one of the screens it leads over, or on one with displays. -/
def ComesToRest (env : Env) (s : Server) (side : Direction) (src : ClientId) (p : Position) : Prop :=
  ∃ n place rest, walk (s.carryOn env side) n ((src, along side p), depth side (s.getShape src) p) = some (place, rest) ∧
    s.carryOn env side (place, rest) = none ∧
    (s.displaysOf place.1 ≠ [] ∨ rest < extent side (s.getShape place.1) ∧ s.ClearOfZone env side place)

lemma contains_avoidJumpZone (hside : side ≠ .noDirection) {dst : ClientId} {q : Position}
    (hdepth : 0 ≤ depth side (s.getShape dst) q) :
    (s.getShape dst).contains (s.avoidJumpZone env dst side q) = true ↔ InAlong side (s.getShape dst) q ∧
      depth side (s.getShape dst) q < extent side (s.getShape dst) ∧ s.ClearOfZone env side (dst, along side q) := by
  rw [ClearOfZone, mapToFraction_setAlong, avoidJumpZone]
  by_cases hdst : dst = primaryClient
  · subst hdst
    rw [if_neg (not_not.mpr rfl), getJumpZoneSize, if_pos rfl]
    cases side with
    | noDirection => exact absurd rfl hside
    | left | right | top | bottom =>
      simp only [InAlong, DisplayRect.spans, along, depth, extent, upright, decide_eq_true_eq, if_true,
        Bool.false_eq_true, if_false, opposite, forall_true_left] at hdepth ⊢
      generalize (s.registry.config.getNeighbor _ _ _ _).1 = neighbor
      by_cases hlinked : neighbor = []
      · simp only [hlinked, ne_eq, not_true_eq_false, false_and, if_false, false_imp_iff, and_true]
        rw [DisplayRect.contains, decide_eq_true_eq]
        omega
      · simp only [hlinked, ne_eq, not_false_eq_true, true_and, forall_true_left]
        split_ifs with hmove <;> rw [DisplayRect.contains, decide_eq_true_eq]
        · dsimp only
          omega
        · omega
  · rw [if_pos hdst, contains_iff hside]
    exact ⟨fun h => ⟨h.1, h.2.2, fun hprimary => absurd hprimary hdst⟩, fun h => ⟨h.1, hdepth, h.2.1⟩⟩

lemma depthIn_toCanonical (hside : side ≠ .noDirection) (d : DisplayRect) (q : Position) :
    depthIn side d (if upright side then (q.1 - d.x, q.2) else (q.1, q.2 - d.y)) = depth side d q ∧
      along side (if upright side then (q.1 - d.x, q.2) else (q.1, q.2 - d.y)) = along side q := by
  cases side with
  | noDirection => exact absurd rfl hside
  | left | right | top | bottom =>
    simp only [depthIn, depth, along, upright, if_true, Bool.false_eq_true, if_false, and_true]
    omega

lemma depth_fromCanonical (hside : side ≠ .noDirection) (d : DisplayRect) (q : Position) :
    depth side d (if upright side then (q.1 + d.x, q.2) else (q.1, q.2 + d.y)) = depthIn side d q ∧
      along side (if upright side then (q.1 + d.x, q.2) else (q.1, q.2 + d.y)) = along side q := by
  cases side with
  | noDirection => exact absurd rfl hside
  | left | right | top | bottom =>
    simp only [depthIn, depth, along, upright, if_true, Bool.false_eq_true, if_false, and_true]
    omega

lemma depth_setAlong (hside : side ≠ .noDirection) (shape : DisplayRect) (a : ℤ) :
    depth side shape (setAlong side a p) = depth side shape p := by
  cases side with
  | noDirection => exact absurd rfl hside
  | left | right | top | bottom => rfl

/-- Where the motion arrives, whatever is rounded on the way, before it is moved clear of the zone and onto a display. In
exact arithmetic it stays within the length of the edges. -/
lemma mapToNeighbor_arrival (hside : side ≠ .noDirection) {src dst : ClientId} {q : Position}
    (hbeyond : extent side (s.getShape src) ≤ depth side (s.getShape src) p)
    (h : s.mapToNeighbor env src side p = some (some (dst, q))) :
    ∃ n p₀, walk (s.carryOn env side) n ((src, along side p), depth side (s.getShape src) p) =
        some ((dst, along side p₀), depth side (s.getShape dst) p₀) ∧
      s.carryOn env side ((dst, along side p₀), depth side (s.getShape dst) p₀) = none ∧
      0 ≤ depth side (s.getShape dst) p₀ ∧ q = s.enterDisplays dst side (s.avoidJumpZone env dst side p₀) ∧
      (env.rnd = id → s.Sound → InAlong side (s.getShape dst) p₀) := by
  rw [mapToNeighbor] at h
  split at h
  · exact absurd h.symm (Option.some_ne_none _)
  · exact absurd (Option.some.inj h).symm (Option.some_ne_none _)
  · rename_i first p₁ hfirst
    obtain ⟨hplace, hset⟩ := getNeighbor_place hside hfirst
    dsimp only at h
    obtain ⟨⟨dst', q'⟩, hskip, heq⟩ := Option.map_eq_some_iff.mp h
    obtain ⟨rfl, rfl⟩ := Prod.mk.inj (Option.some.inj heq)
    obtain ⟨hcanonical, halong⟩ := depthIn_toCanonical hside (s.getShape src) p₁
    have hdepth : depth side (s.getShape src) p₁ = depth side (s.getShape src) p := by
      rw [hset, depth_setAlong hside]
    generalize (if upright side then (p₁.1 - (s.getShape src).x, p₁.2) else (p₁.1, p₁.2 - (s.getShape src).y)) = p₂
      at hskip hcanonical halong
    rw [hdepth] at hcanonical
    obtain ⟨n, hwalk, hend, hnonneg⟩ := skipScreens_walk hside (hcanonical ▸ hbeyond) hskip
    obtain ⟨hback, hbackAlong⟩ := depth_fromCanonical hside (s.getShape dst') q'
    generalize (if upright side then (q'.1 + (s.getShape dst').x, q'.2) else (q'.1, q'.2 + (s.getShape dst').y)) = q''
      at hback hbackAlong
    refine ⟨n + 1, q'', ?_, ?_, hback ▸ hnonneg, rfl, fun hrnd hs => ?_⟩
    · rw [Walk.walk_succ, carryOn, if_pos hbeyond, hplace, hback, hbackAlong, ← hwalk, halong, hcanonical]
      rfl
    · rw [hback, hbackAlong]
      exact hend
    · have hin := (getNeighbor_inAlong hrnd hs hfirst).2
      rw [InAlong, ← halong, ← InAlong] at hin
      rw [InAlong, hbackAlong]
      exact skipScreens_inAlong hrnd hs hside hin hskip

lemma mapToNeighbor_walk (hsizes : ∀ e ∈ s.registry.config.displays.entries, ∀ d ∈ e.2, 0 < d.w ∧ 0 < d.h)
    (hside : side ≠ .noDirection) {src dst : ClientId} {q : Position}
    (hbeyond : extent side (s.getShape src) ≤ depth side (s.getShape src) p)
    (h : s.mapToNeighbor env src side p = some (some (dst, q))) :
    ∃ n a rest, walk (s.carryOn env side) n ((src, along side p), depth side (s.getShape src) p) =
        some ((dst, a), rest) ∧
      s.carryOn env side ((dst, a), rest) = none ∧
      ((s.getShape dst).contains q = true ↔ s.displaysOf dst ≠ [] ∨ (s.getShape dst).spans side a = true ∧
        rest < extent side (s.getShape dst) ∧ s.ClearOfZone env side (dst, a)) ∧
      (env.rnd = id → s.Sound → (s.getShape dst).spans side a = true) := by
  obtain ⟨n, p₀, hwalk, hend, hnonneg, rfl, hin⟩ := mapToNeighbor_arrival hside hbeyond h
  refine ⟨n, _, _, hwalk, hend, ?_, hin⟩
  rw [contains_enterDisplays hsizes, contains_avoidJumpZone hside hnonneg, InAlong]

lemma mapToNeighbor_side (hrnd : env.rnd = id) (hs : s.Sound) {src dst : ClientId} {q : Position}
    (h : s.mapToNeighbor env src side p = some (some (dst, q))) : side ≠ .noDirection := by
  rw [mapToNeighbor] at h
  split at h
  · exact absurd h.symm (Option.some_ne_none _)
  · exact absurd (Option.some.inj h).symm (Option.some_ne_none _)
  · rename_i first p₁ hfirst
    exact (getNeighbor_inAlong hrnd hs hfirst).1

/-- The position found lies in the screen found exactly if the motion ends within the screens that it leads over, and is
not moved back out of the local screen. -/
theorem mapToNeighbor_inside_iff (hrnd : env.rnd = id) (hs : s.Sound) {src dst : ClientId} {q : Position}
    (hbeyond : extent side (s.getShape src) ≤ depth side (s.getShape src) p)
    (h : s.mapToNeighbor env src side p = some (some (dst, q))) :
    (s.getShape dst).contains q = true ↔ s.ComesToRest env side src p := by
  have hside := mapToNeighbor_side hrnd hs h
  obtain ⟨n, a, rest, hwalk, hend, hinside, hspans⟩ := mapToNeighbor_walk hs.displays hside hbeyond h
  rw [hinside]
  constructor
  · exact fun hrest => ⟨n, (dst, a), rest, hwalk, hend, hrest.imp_right fun h => h.2⟩
  · rintro ⟨m, place, rest', hother, hotherEnd, hrest⟩
    obtain ⟨rfl, rfl⟩ := Prod.mk.inj (Walk.end_unique hother hotherEnd hwalk hend)
    exact hrest.imp_right fun h => ⟨hspans hrnd hs, h⟩

def exactEnv : Env := { Env.plain with rnd := id }

def withNeighbor : Server :=
  let c := Config.ofScreens [['p'], ['a']]
  let c := (c.connect ['p'] .right 0 1 ['a'] 0 1).getD c
  ((plain c).accept 1 ['a'] ⟨0, 0, 1024, 768⟩ (0, 0)).adoptClient exactEnv 1

theorem mapToNeighbor_inside_withNeighbor :
    (withNeighbor.getShape 1).contains (80, 384) = true ↔
      withNeighbor.ComesToRest exactEnv .right primaryClient (2000, 540) :=
  mapToNeighbor_inside_iff rfl (by decide) (by decide +kernel) (by decide +kernel)

/-- Beyond the only neighbor there is no other. -/
theorem mapToNeighbor_outside : ¬ ∀ (env : Env) (s : Server) (side : Direction) (src dst : ClientId) (p q : Position),
    env.rnd = id → s.Sound → extent side (s.getShape src) ≤ depth side (s.getShape src) p →
    s.mapToNeighbor env src side p = some (some (dst, q)) → (s.getShape dst).contains q = true := by
  intro hall
  have hinside := hall exactEnv withNeighbor .right primaryClient 1 (4000, 540) (2080, 384) rfl (by decide)
    (by decide) (by decide +kernel)
  exact absurd hinside (by decide)

structure Refused (env : Env) (s : Server) (dst : ClientId) : Prop where
  other : s.active ≠ dst
  primary : s.active = primaryClient
  leave : env.leave = false

lemma switchScreen_refused {dst : ClientId} (h : Refused env s dst) (p : Position) :
    s.switchScreen env dst p = s.recordPosition dst p := by
  have hleave : (s.recordPosition dst p).active = primaryClient ∧ (!env.leave) = true := ⟨h.primary, by rw [h.leave]; rfl⟩
  exact (if_neg h.other).trans (if_pos hleave)

/-- The position on the screen that was not entered has been recorded by then. -/
theorem refused_unchanged_iff {dst : ClientId} (h : Refused env s dst) :
    ((s.switchScreen env dst p).active = s.active ∧ (s.switchScreen env dst p).pointer.pos = s.pointer.pos ∧
      (s.switchScreen env dst p).seqNum = s.seqNum) ↔ s.stayOnDisplays dst p p = s.pointer.pos := by
  rw [switchScreen_refused h]
  constructor
  · exact fun hsame => hsame.2.1
  · exact fun hpos => ⟨rfl, hpos, rfl⟩

def refusingEnv : Env := { Env.plain with leave := false }

theorem refused_unchanged_withNeighbor :
    ((withNeighbor.switchScreen refusingEnv 1 (0, 0)).active = primaryClient ∧
      (withNeighbor.switchScreen refusingEnv 1 (0, 0)).pointer.pos = (0, 0) ∧
      (withNeighbor.switchScreen refusingEnv 1 (0, 0)).seqNum = withNeighbor.seqNum) ↔
      withNeighbor.stayOnDisplays 1 (0, 0) (0, 0) = (0, 0) :=
  refused_unchanged_iff (s := withNeighbor) ⟨by decide, rfl, rfl⟩

/-- The cursor is left at a position of the neighbor. -/
theorem refused_moved : ¬ ∀ (env : Env) (s : Server) (dst : ClientId) (p : Position), Refused env s dst →
    (s.switchScreen env dst p).active = s.active ∧ (s.switchScreen env dst p).pointer.pos = s.pointer.pos ∧
      (s.switchScreen env dst p).seqNum = s.seqNum := by
  intro hall
  obtain ⟨-, hpos, -⟩ := hall refusingEnv withNeighbor 1 (512, 384) ⟨by decide, rfl, rfl⟩
  exact absurd hpos (by decide)

end Server

end InputLeap
