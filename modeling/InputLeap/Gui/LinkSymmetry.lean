import InputLeap.Gui.Links
import InputLeap.Gui.Overlap

/-! On a row of the shared space every computer that is there at all has one face to either side, and these are in
order, the computers one after the other. So the first computer ahead of one has that one as the first behind it, the
stretches of both directions are the same, and the cursor comes back the same way. -/

namespace InputLeap.Gui

open InputLeap.Lib

namespace Side

variable (side : Side) (d e : Rect)

def across : ℤ × ℤ := if side.upright then (d.x, d.right) else (d.y, d.bottom)

lemma forward_opposite : side.opposite.forward = !side.forward := by
  cases side <;> rfl

def pos (edge : ℤ) : ℤ := if side.forward then edge else -edge

lemma pos_edge : side.pos (side.edge d) = if side.forward then (side.across d).2 else -(side.across d).1 := by
  cases side <;> rfl

lemma pos_opposite_edge :
    side.pos (side.opposite.edge d) = if side.forward then (side.across d).1 else -(side.across d).2 := by
  cases side <;> rfl

lemma beyond_iff : side.beyond d e = true ↔
    if side.forward then (side.across d).2 ≤ (side.across e).1 else (side.across e).2 ≤ (side.across d).1 := by
  cases side <;> exact decide_eq_true_iff

lemma along_lt (h : d.Proper) : (side.along d).1 < (side.along d).2 := by
  simp only [Rect.Proper] at h
  cases side <;> simp only [along, upright, Rect.right, Rect.bottom] <;> simp <;> omega

lemma across_lt (h : d.Proper) : (side.across d).1 < (side.across d).2 := by
  simp only [Rect.Proper] at h
  cases side <;> simp only [across, upright, Rect.right, Rect.bottom] <;> simp <;> omega

end Side

def Over (span : ℤ × ℤ) (n : ℤ) : Prop := span.1 ≤ n ∧ n < span.2

instance (span : ℤ × ℤ) (n : ℤ) : Decidable (Over span n) := inferInstanceAs (Decidable (_ ∧ _))

def Face.Has (f : Face) (n : ℤ) : Prop := Over (f.start, f.stop) n

lemma across_apart {side : Side} {d e : Rect} {n : ℤ} (h : d.intersects e = false) (hd : Over (side.along d) n)
    (he : Over (side.along e) n) : (side.across d).2 ≤ (side.across e).1 ∨ (side.across e).2 ≤ (side.across d).1 := by
  have happart := Rect.intersects_eq_false_iff.mp h
  cases side <;> simp only [Over, Side.along, Side.across, Side.upright] at * <;> simp at * <;> omega

lemma Over.inside {side : Side} {d e : Rect} {n : ℤ} (h : d.Inside e) (hd : Over (side.along d) n) :
    Over (side.along e) n := by
  obtain ⟨hx, hy, hright, hbottom⟩ := h
  cases side <;> simp only [Over, Side.along, Side.upright] at * <;> simp at * <;> omega

lemma across_inside {side : Side} {d e : Rect} (h : d.Inside e) :
    (side.across e).1 ≤ (side.across d).1 ∧ (side.across d).2 ≤ (side.across e).2 := by
  obtain ⟨hx, hy, hright, hbottom⟩ := h
  cases side <;> simp [Side.across, Side.upright, hx, hy, hright, hbottom]

section Spans

variable {lo hi n : ℤ} {spans : List (ℤ × ℤ)}

def Ordered (spans : List (ℤ × ℤ)) : Prop := (∀ span ∈ spans, span.1 < span.2) ∧ spans.Pairwise fun a b => a.2 ≤ b.1

lemma mem_cutOut {span : ℤ × ℤ} (hspans : Ordered spans) (h : span ∈ cutOut lo hi spans) :
    ∃ whole ∈ spans, whole.1 ≤ span.1 ∧ span.1 < span.2 ∧ span.2 ≤ whole.2 := by
  obtain ⟨whole, hwhole, hspan⟩ := List.mem_flatMap.mp h
  have hwholeLt := hspans.1 whole hwhole
  refine ⟨whole, hwhole, ?_⟩
  split_ifs at hspan <;> simp at hspan
  · subst hspan
    omega
  · rcases hspan with rfl | rfl <;> omega
  · subst hspan
    omega
  · subst hspan
    omega

lemma Ordered.cutOut (hlt : lo < hi) (h : Ordered spans) : Ordered (cutOut lo hi spans) := by
  refine ⟨fun span hspan => ?_, ?_⟩
  · obtain ⟨whole, -, hin⟩ := mem_cutOut h hspan
    exact hin.2.1
  · rw [Gui.cutOut, List.pairwise_flatMap]
    refine ⟨fun span hspan => ?_, h.2.imp_of_mem fun {a b} ha hb hab x hx y hy => ?_⟩
    · split_ifs <;> simp
      exact hlt.le
    · have hx' := mem_cutOut  ⟨by simpa using h.1 a ha, List.pairwise_singleton _ a⟩
        (List.mem_flatMap.mpr ⟨a, List.mem_singleton_self a, hx⟩)
      have hy' := mem_cutOut ⟨by simpa using h.1 b hb, List.pairwise_singleton _ b⟩
        (List.mem_flatMap.mpr ⟨b, List.mem_singleton_self b, hy⟩)
      simp only [List.mem_singleton, exists_eq_left] at hx' hy'
      omega

lemma Ordered.eq_of_over {span span' : ℤ × ℤ} (h : Ordered spans) (hspan : span ∈ spans) (hspan' : span' ∈ spans)
    (hn : Over span n) (hn' : Over span' n) : span = span' := by
  induction spans with
  | nil => simp at hspan
  | cons first spans ih =>
    obtain ⟨hfirst, hrest⟩ := List.pairwise_cons.mp h.2
    simp only [Over] at *
    rcases List.mem_cons.mp hspan with rfl | hmem
    · rcases List.mem_cons.mp hspan' with rfl | hmem'
      · rfl
      · have hle := hfirst span' hmem'
        omega
    · rcases List.mem_cons.mp hspan' with rfl | hmem'
      · have hle := hfirst span hmem
        omega
      · exact ih ⟨fun t ht => h.1 t (List.mem_cons_of_mem first ht), hrest⟩ hmem hmem'

lemma Ordered.nodup (h : Ordered spans) : spans.Nodup := by
  refine h.2.imp_of_mem fun {a b} ha _ hle heq => ?_
  subst heq
  exact absurd (h.1 a ha) (not_lt.mpr hle)

lemma over_cutOut (hlt : lo < hi) : (∃ span ∈ cutOut lo hi spans, Over span n) ↔
    (∃ span ∈ spans, Over span n) ∧ ¬(lo ≤ n ∧ n < hi) := by
  constructor
  · rintro ⟨span, hspan, hover⟩
    obtain ⟨whole, hwhole, hmem⟩ := List.mem_flatMap.mp hspan
    simp only [Over] at *
    split_ifs at hmem <;> simp at hmem
    · subst hmem
      exact ⟨⟨span, hwhole, hover⟩, by omega⟩
    · rcases hmem with rfl | rfl <;> exact ⟨⟨whole, hwhole, by omega⟩, by omega⟩
    · subst hmem
      exact ⟨⟨whole, hwhole, by omega⟩, by omega⟩
    · subst hmem
      exact ⟨⟨whole, hwhole, by omega⟩, by omega⟩
  · rintro ⟨⟨span, hspan, hover⟩, hout⟩
    simp only [Over] at *
    by_cases hkept : hi ≤ span.1 ∨ span.2 ≤ lo
    · exact ⟨span, List.mem_flatMap.mpr ⟨span, hspan, by simp [hkept]⟩, hover⟩
    · by_cases hn : n < lo
      · refine ⟨(span.1, lo), List.mem_flatMap.mpr ⟨span, hspan, ?_⟩, by dsimp only; omega⟩
        rw [if_neg hkept, if_pos (by omega)]
        simp
      · refine ⟨(hi, span.2), List.mem_flatMap.mpr ⟨span, hspan, ?_⟩, by dsimp only; omega⟩
        have hlt' : hi < span.2 := by omega
        rw [if_neg hkept, if_pos hlt']
        simp

end Spans

section Faces

variable {side : Side} {rects : List Rect} {d : Rect} {i : ℕ} {n : ℤ}

lemma openSpans_spec (hproper : ∀ r ∈ rects, r.Proper) (l : List (Rect × ℕ)) (hl : ∀ e ∈ l, e.1 ∈ rects)
    (spans : List (ℤ × ℤ)) (hspans : Ordered spans) :
    let rest := l.foldl (fun spans e =>
      if e.2 = i ∨ side.beyond d e.1 = false then spans else cutOut (side.along e.1).1 (side.along e.1).2 spans) spans
    Ordered rest ∧ ∀ n, (∃ span ∈ rest, Over span n) ↔ (∃ span ∈ spans, Over span n) ∧
      ∀ e ∈ l, e.2 ≠ i → side.beyond d e.1 = true → ¬Over (side.along e.1) n := by
  induction l generalizing spans with
  | nil => exact ⟨hspans, by simp⟩
  | cons e l ih =>
    have hrest (e' : Rect × ℕ) (he' : e' ∈ l) : e'.1 ∈ rects := hl e' (List.mem_cons_of_mem e he')
    have hlt := side.along_lt e.1 (hproper _ (hl e List.mem_cons_self))
    dsimp only
    rw [List.foldl_cons]
    by_cases hskip : e.2 = i ∨ side.beyond d e.1 = false
    · rw [if_pos hskip]
      obtain ⟨hordered, hover⟩ := ih hrest spans hspans
      refine ⟨hordered, fun n => (hover n).trans (and_congr_right fun _ => ?_)⟩
      rw [List.forall_mem_cons]
      refine ⟨fun h => ⟨fun hne hbeyond => ?_, h⟩, fun h => h.2⟩
      rcases hskip with heq | hfalse
      · exact absurd heq hne
      · simp [hfalse] at hbeyond
    · rw [if_neg hskip]
      obtain ⟨hordered, hover⟩ := ih hrest _ (hspans.cutOut hlt)
      refine ⟨hordered, fun n => ?_⟩
      rw [hover n, over_cutOut hlt, List.forall_mem_cons, and_assoc]
      refine and_congr_right fun _ => and_congr_left fun _ => ⟨fun h _ _ => h, fun h => h ?_ ?_⟩
      · exact fun heq => hskip (.inl heq)
      · simpa using fun hfalse => hskip (.inr hfalse)

lemma ordered_openSpans (hproper : ∀ r ∈ rects, r.Proper) (hd : d.Proper) : Ordered (openSpans side rects d i) := by
  have hone : Ordered [side.along d] := ⟨by simpa using side.along_lt d hd, List.pairwise_singleton _ _⟩
  exact (openSpans_spec hproper rects.zipIdx (fun e he => List.fst_mem_of_mem_zipIdx he) _ hone).1

lemma over_openSpans (hproper : ∀ r ∈ rects, r.Proper) (hd : d.Proper) (n : ℤ) :
    (∃ span ∈ openSpans side rects d i, Over span n) ↔ Over (side.along d) n ∧
      ∀ e j, rects[j]? = some e → j ≠ i → side.beyond d e = true → ¬Over (side.along e) n := by
  have hone : Ordered [side.along d] := ⟨by simpa using side.along_lt d hd, List.pairwise_singleton _ _⟩
  have hspec := (@openSpans_spec side rects d i hproper rects.zipIdx
    (fun e he => List.fst_mem_of_mem_zipIdx he) _ hone).2 n
  rw [openSpans]
  refine hspec.trans (and_congr (by simp) ⟨fun h e j he => ?_, fun h e he => ?_⟩)
  · exact h (e, j) (List.mk_mem_zipIdx_iff_getElem?.mpr he)
  · exact h e.1 e.2 (List.mem_zipIdx_iff_getElem?.mp he)

lemma mem_facesOf {f : Face} : f ∈ facesOf side rects ↔ ∃ d, rects[f.display]? = some d ∧
    (f.start, f.stop) ∈ openSpans side rects d f.display ∧ f.edge = side.edge d := by
  rw [facesOf, List.mem_insertionSort, List.mem_flatMap]
  constructor
  · rintro ⟨⟨d, i⟩, hd, hf⟩
    obtain ⟨span, hspan, rfl⟩ := List.mem_map.mp hf
    exact ⟨d, List.mk_mem_zipIdx_iff_getElem?.mp hd, hspan, rfl⟩
  · rintro ⟨d, hd, hspan, hedge⟩
    refine ⟨(d, f.display), List.mk_mem_zipIdx_iff_getElem?.mpr hd, List.mem_map.mpr ⟨_, hspan, ?_⟩⟩
    rw [← hedge]

structure Displays (rects : List Rect) : Prop where
  proper : ∀ r ∈ rects, r.Proper
  apart : rects.Pairwise fun d e => d.intersects e = false

variable (h : Displays rects)

include h

lemma Displays.apart_of_ne {d e : Rect} {i j : ℕ} (hd : rects[i]? = some d) (he : rects[j]? = some e) (hne : i ≠ j) :
    d.intersects e = false := by
  obtain ⟨hi, rfl⟩ := List.getElem?_eq_some_iff.mp hd
  obtain ⟨hj, rfl⟩ := List.getElem?_eq_some_iff.mp he
  rcases Nat.lt_or_gt_of_ne hne with hlt | hgt
  · exact List.pairwise_iff_getElem.mp h.apart i j hi hj hlt
  · rw [Rect.intersects_comm]
    exact List.pairwise_iff_getElem.mp h.apart j i hj hi hgt

lemma Displays.of_has {f : Face} (hf : f ∈ facesOf side rects) (hn : f.Has n) : ∃ d, rects[f.display]? = some d ∧
    f.edge = side.edge d ∧ Over (side.along d) n ∧
    ∀ e j, rects[j]? = some e → j ≠ f.display → side.beyond d e = true → ¬Over (side.along e) n := by
  obtain ⟨d, hd, hspan, hedge⟩ := mem_facesOf.mp hf
  have hproper := h.proper d (List.mem_of_getElem? hd)
  exact ⟨d, hd, hedge, (over_openSpans h.proper hproper n).mp ⟨_, hspan, hn⟩⟩

lemma Displays.exists_face (hd : d ∈ rects) (hn : Over (side.along d) n) : ∃ f ∈ facesOf side rects, f.Has n := by
  -- the display that is furthest in the direction of the side, of those on the row
  have hmem (e : Rect) : e ∈ rects.filter (fun e => decide (Over (side.along e) n)) ↔ e ∈ rects ∧ Over (side.along e) n := by
    rw [List.mem_filter, decide_eq_true_iff]
  have hsome : ∃ e, e ∈ (rects.filter fun e => decide (Over (side.along e) n)).argmax fun e => side.pos (side.edge e) := by
    apply Option.ne_none_iff_exists'.mp
    rw [Ne, List.argmax_eq_none]
    exact List.ne_nil_of_mem ((hmem d).mpr ⟨hd, hn⟩)
  obtain ⟨e, hmax⟩ := hsome
  have he := (hmem e).mp (List.argmax_mem hmax)
  obtain ⟨i, hi⟩ := List.mem_iff_getElem?.mp he.1
  have hopen := (@over_openSpans side rects e i h.proper (h.proper e he.1) n).mpr
    ⟨he.2, fun e' j he' _ hbeyond hover => ?_⟩
  · obtain ⟨span, hspan, hover⟩ := hopen
    exact ⟨⟨span.1, span.2, i, side.edge e⟩, mem_facesOf.mpr ⟨e, hi, hspan, rfl⟩, hover⟩
  · have he'Mem := List.mem_of_getElem? he'
    have hle := List.le_of_mem_argmax ((hmem e').mpr ⟨he'Mem, hover⟩) hmax
    have hlt := side.across_lt e' (h.proper e' he'Mem)
    have hlt' := side.across_lt e (h.proper e he.1)
    rw [Side.beyond_iff] at hbeyond
    simp only [Side.pos_edge] at hle
    split_ifs at hle hbeyond with hforward <;> omega

lemma Displays.face_unique {f g : Face} (hf : f ∈ facesOf side rects) (hg : g ∈ facesOf side rects) (hfn : f.Has n)
    (hgn : g.Has n) : f = g := by
  obtain ⟨d, hd, hedge, hdn, hnone⟩ := h.of_has hf hfn
  obtain ⟨e, he, hedge', hen, hnone'⟩ := h.of_has hg hgn
  by_cases hne : f.display = g.display
  · obtain rfl : d = e := by
      rw [hne] at hd
      exact Option.some.inj (hd.symm.trans he)
    obtain ⟨d', hd', hspan, -⟩ := mem_facesOf.mp hf
    obtain ⟨e', he', hspan', -⟩ := mem_facesOf.mp hg
    obtain rfl : d' = d := Option.some.inj (hd'.symm.trans hd)
    obtain rfl : e' = d' := Option.some.inj (he'.symm.trans he)
    rw [← hne] at hspan'
    have hordered := @ordered_openSpans side rects e' f.display h.proper (h.proper e' (List.mem_of_getElem? he))
    have hsame : (f.start, f.stop) = (g.start, g.stop) := hordered.eq_of_over hspan hspan' hfn hgn
    obtain ⟨hstart, hstop⟩ := Prod.mk.inj hsame
    cases f
    cases g
    simp_all
  · have hapart := h.apart_of_ne hd he hne
    exfalso
    have hside := across_apart hapart hdn hen
    have hnot := hnone e g.display he (Ne.symm hne)
    have hnot' := hnone' d f.display hd hne
    rw [Side.beyond_iff] at hnot hnot'
    split_ifs at hnot hnot' with hforward
    · rcases hside with hle | hle
      · exact hnot hle hen
      · exact hnot' hle hdn
    · rcases hside with hle | hle
      · exact hnot' hle hdn
      · exact hnot hle hen

lemma Displays.pos_lt {f f' : Face} (hf : f ∈ facesOf side rects) (hf' : f' ∈ facesOf side.opposite rects)
    (hn : f.Has n) (hn' : f'.Has n) : side.pos f'.edge < side.pos f.edge := by
  obtain ⟨d, hd, hedge, hdn, hnone⟩ := h.of_has hf hn
  obtain ⟨e, he, hedge', hen, -⟩ := h.of_has hf' hn'
  rw [Side.along_opposite] at hen
  rw [hedge, hedge', Side.pos_edge, Side.pos_opposite_edge]
  have hlt := side.across_lt d (h.proper d (List.mem_of_getElem? hd))
  have hlt' := side.across_lt e (h.proper e (List.mem_of_getElem? he))
  by_cases hne : f.display = f'.display
  · obtain rfl : d = e := by
      rw [hne] at hd
      exact Option.some.inj (hd.symm.trans he)
    split_ifs <;> omega
  · have hside := across_apart (h.apart_of_ne hd he hne) hdn hen
    have hnot := hnone e f'.display he (Ne.symm hne)
    rw [Side.beyond_iff] at hnot
    split_ifs at hnot ⊢ with hforward
    · rcases hside with hle | hle
      · exact absurd hen (hnot hle)
      · omega
    · rcases hside with hle | hle
      · omega
      · exact absurd hen (hnot hle)

end Faces

lemma Face.distance_eq (side : Side) (f g : Face) : f.distance side g = side.pos g.edge - side.pos f.edge := by
  rw [Face.distance, Side.pos, Side.pos]
  split_ifs <;> ring

lemma Face.distance_opposite (side : Side) (f g : Face) : g.distance side.opposite f = f.distance side g := by
  rw [Face.distance, Face.distance, Side.forward_opposite]
  cases side.forward <;> rfl

structure Ends where
  source : ℕ
  target : ℕ
  side : Side
  departure : ℤ × ℤ
  arrival : ℤ × ℤ
  deriving DecidableEq

def Ends.back (e : Ends) : Ends := ⟨e.target, e.source, e.side.opposite, e.arrival, e.departure⟩

lemma Ends.back_back (e : Ends) : e.back.back = e := by
  obtain ⟨source, target, side, departure, arrival⟩ := e
  simp [back]

def ScreenLink.ends (l : ScreenLink) : Ends :=
  ⟨l.source, l.target, l.side, (l.fromStart, l.fromEnd), (l.toStart, l.toEnd)⟩

structure LayoutModel.Drawn (m : LayoutModel) : Prop where
  desktops : AllApart m.screens
  displays : ∀ s ∈ m.screens, s.displayRects.Pairwise fun d e => d.intersects e = false

namespace LayoutModel

variable {m : LayoutModel} {side : Side} {i j k : ℕ} {f g : Face} {n : ℤ}

def HasFace (m : LayoutModel) (side : Side) (i : ℕ) (f : Face) : Prop :=
  ∃ s, m.screens[i]? = some s ∧ f ∈ faces s side

structure First (m : LayoutModel) (side : Side) (i : ℕ) (f : Face) (j : ℕ) (g : Face) (n : ℤ) : Prop where
  leaving : m.HasFace side i f
  entering : m.HasFace side.opposite j g
  other : j ≠ i
  row : f.Has n ∧ g.Has n
  ahead : 0 ≤ f.distance side g
  first : ∀ k h, k ≠ i → m.HasFace side.opposite k h → h.Has n → 0 ≤ f.distance side h →
    f.distance side g ≤ f.distance side h

lemma displays_of_mem (hm : m.Drawn) {s : ScreenConfig} (hs : m.screens[i]? = some s) : Displays s.displayRects :=
  ⟨fun _ hr => ScreenConfig.proper_displayRects hr, hm.displays s (List.mem_of_getElem? hs)⟩

lemma HasFace.unique (hm : m.Drawn) (hf : m.HasFace side i f) (hg : m.HasFace side i g) (hfn : f.Has n)
    (hgn : g.Has n) : f = g := by
  obtain ⟨s, hs, hf⟩ := hf
  obtain ⟨t, ht, hg⟩ := hg
  obtain rfl : s = t := Option.some.inj (hs.symm.trans ht)
  exact (displays_of_mem hm hs).face_unique hf hg hfn hgn

lemma HasFace.opposite (hm : m.Drawn) (hf : m.HasFace side i f) (hn : f.Has n) :
    ∃ f', m.HasFace side.opposite i f' ∧ f'.Has n := by
  obtain ⟨s, hs, hf⟩ := hf
  have hdisplays := displays_of_mem hm hs
  obtain ⟨d, hd, -, hover, -⟩ := hdisplays.of_has hf hn
  rw [← Side.along_opposite] at hover
  obtain ⟨f', hf', hn'⟩ := hdisplays.exists_face (List.mem_of_getElem? hd) hover
  exact ⟨f', ⟨s, hs, hf'⟩, hn'⟩

lemma HasFace.pos_lt {f' : Face} (hm : m.Drawn) (hf : m.HasFace side i f) (hf' : m.HasFace side.opposite i f')
    (hn : f.Has n) (hn' : f'.Has n) : side.pos f'.edge < side.pos f.edge := by
  obtain ⟨s, hs, hf⟩ := hf
  obtain ⟨t, ht, hf'⟩ := hf'
  obtain rfl : s = t := Option.some.inj (hs.symm.trans ht)
  exact (displays_of_mem hm hs).pos_lt hf hf' hn hn'

lemma pos_apart {f' h h' : Face} (hm : m.Drawn) (hne : i ≠ k) (hf : m.HasFace side i f)
    (hf' : m.HasFace side.opposite i f') (hh : m.HasFace side k h) (hh' : m.HasFace side.opposite k h')
    (hfn : f.Has n) (hfn' : f'.Has n) (hhn : h.Has n) (hhn' : h'.Has n) :
    side.pos f.edge ≤ side.pos h'.edge ∨ side.pos h.edge ≤ side.pos f'.edge := by
  have hdisplay {k : ℕ} {side : Side} {h : Face} (hh : m.HasFace side k h) (hhn : h.Has n) :
      ∃ s d, m.screens[k]? = some s ∧ h.edge = side.edge d ∧ d.Inside s.desktop ∧ Over (side.along d) n := by
    obtain ⟨s, hs, hh⟩ := hh
    obtain ⟨d, hd, hedge, hover, -⟩ := (displays_of_mem hm hs).of_has hh hhn
    exact ⟨s, d, hs, hedge, ScreenConfig.inside_desktop (List.mem_of_getElem? hd), hover⟩
  obtain ⟨s, d, hs, hedge, hin, hover⟩ := hdisplay hf hfn
  obtain ⟨s', d', hs', hedge', hin', -⟩ := hdisplay hf' hfn'
  obtain ⟨t, e, ht, hhedge, hhin, hhover⟩ := hdisplay hh hhn
  obtain ⟨t', e', ht', hhedge', hhin', -⟩ := hdisplay hh' hhn'
  obtain rfl : s = s' := Option.some.inj (hs.symm.trans hs')
  obtain rfl : t = t' := Option.some.inj (ht.symm.trans ht')
  have hapart : s.desktop.intersects t.desktop = false := by
    obtain ⟨hi, rfl⟩ := List.getElem?_eq_some_iff.mp hs
    obtain ⟨hk, rfl⟩ := List.getElem?_eq_some_iff.mp ht
    rcases Nat.lt_or_gt_of_ne hne with hlt | hgt
    · exact List.pairwise_iff_getElem.mp hm.desktops i k hi hk hlt
    · rw [Rect.intersects_comm]
      exact List.pairwise_iff_getElem.mp hm.desktops k i hk hi hgt
  have hside := across_apart hapart (hover.inside hin) (hhover.inside hhin)
  have hd := @across_inside side _ _ hin
  have hd' := @across_inside side _ _ hin'
  have he := @across_inside side _ _ hhin
  have he' := @across_inside side _ _ hhin'
  rw [hedge, hedge', hhedge, hhedge', Side.pos_edge, Side.pos_edge, Side.pos_opposite_edge, Side.pos_opposite_edge]
  split_ifs <;> omega

theorem First.symm (hm : m.Drawn) (h : First m side i f j g n) : First m side.opposite j g i f n where
  leaving := h.entering
  entering := by
    rw [Side.opposite_opposite]
    exact h.leaving
  other := h.other.symm
  row := h.row.symm
  ahead := by
    rw [Face.distance_opposite]
    exact h.ahead
  first k b hk hb hbn hahead := by
    rw [Side.opposite_opposite] at hb
    rw [Face.distance_opposite] at hahead ⊢
    rw [Face.distance_opposite]
    by_cases hki : k = i
    · subst hki
      obtain rfl := HasFace.unique hm h.leaving hb h.row.1 hbn
      exact le_rfl
    -- the other computer is ahead of this one, and then also ahead of the first, or behind
    · obtain ⟨f', hf', hfn'⟩ := h.leaving.opposite hm h.row.1
      obtain ⟨b', hb', hbn'⟩ := hb.opposite hm hbn
      have hlt := h.leaving.pos_lt hm hf' h.row.1 hfn'
      have hlt' := hb.pos_lt hm hb' hbn hbn'
      have hfirst := h.first k b' hki hb' hbn'
      simp only [Face.distance_eq] at *
      rcases pos_apart hm (Ne.symm hki) h.leaving hf' hb hb' h.row.1 hfn' hbn hbn' with hle | hle
      · have hle' := hfirst (by omega)
        omega
      · omega

lemma first_symm_iff (hm : m.Drawn) : First m side i f j g n ↔ First m side.opposite j g i f n := by
  refine ⟨First.symm hm, fun h => ?_⟩
  have hback := First.symm hm h
  rwa [Side.opposite_opposite] at hback

section Pieces

lemma mem_ahead {a : Ahead} : a ∈ m.ahead side i f ↔ m.HasFace side.opposite a.screen a.face ∧ a.screen ≠ i ∧
    0 ≤ f.distance side a.face ∧ f.commonStart a.face < f.commonStop a.face := by
  rw [LayoutModel.ahead, List.mem_flatMap]
  constructor
  · rintro ⟨⟨t, j⟩, ht, ha⟩
    dsimp only at ha
    split_ifs at ha with hne
    · simp at ha
    · obtain ⟨g, hg, rfl⟩ := List.mem_map.mp ha
      obtain ⟨hg, hfaced⟩ := List.mem_filter.mp hg
      exact ⟨⟨t, List.mk_mem_zipIdx_iff_getElem?.mp ht, hg⟩, hne, decide_eq_true_iff.mp hfaced⟩
  · rintro ⟨⟨t, ht, hg⟩, hne, hfaced⟩
    refine ⟨(t, a.screen), List.mk_mem_zipIdx_iff_getElem?.mpr ht, ?_⟩
    dsimp only
    rw [if_neg hne]
    exact List.mem_map.mpr ⟨a.face, List.mem_filter.mpr ⟨hg, decide_eq_true_iff.mpr hfaced⟩, rfl⟩

lemma common_iff {start stop : ℤ} : f.commonStart g ≤ start ∧ stop ≤ f.commonStop g ↔
    (f.start ≤ start ∧ stop ≤ f.stop) ∧ g.start ≤ start ∧ stop ≤ g.stop := by
  rw [Face.commonStart, Face.commonStop, max_le_iff, le_min_iff]
  tauto

def nearestAt (m : LayoutModel) (side : Side) (i : ℕ) (f : Face) (n : ℤ) : Option Ahead :=
  nearest side f (m.ahead side i f) n (n + 1)

lemma mem_row {a : Ahead} :
    a ∈ (m.ahead side i f).filter (fun a => decide (f.commonStart a.face ≤ n ∧ n + 1 ≤ f.commonStop a.face)) ↔
      m.HasFace side.opposite a.screen a.face ∧ a.screen ≠ i ∧ 0 ≤ f.distance side a.face ∧ f.Has n ∧
        a.face.Has n := by
  rw [List.mem_filter, mem_ahead, decide_eq_true_iff, common_iff]
  simp only [Face.Has, Over, Face.commonStart, Face.commonStop]
  constructor
  · rintro ⟨⟨hface, hne, hle, -⟩, hrow⟩
    exact ⟨hface, hne, hle, by omega, by omega⟩
  · rintro ⟨hface, hne, hle, hf, hg⟩
    exact ⟨⟨hface, hne, hle, by omega⟩, by omega, by omega⟩

lemma nearestAt_eq_some_iff (hm : m.Drawn) (hf : m.HasFace side i f) :
    m.nearestAt side i f n = some ⟨j, g⟩ ↔ First m side i f j g n := by
  rw [nearestAt, nearest, ← Option.mem_def, List.mem_argmin_iff, mem_row]
  constructor
  · rintro ⟨⟨hg, hne, hahead, hfn, hgn⟩, hleast, -⟩
    refine ⟨hf, hg, hne, ⟨hfn, hgn⟩, hahead, fun k h hk hh hhn hle => ?_⟩
    exact hleast ⟨k, h⟩ (mem_row.mpr ⟨hh, hk, hle, hfn, hhn⟩)
  · intro h
    refine ⟨⟨h.entering, h.other, h.ahead, h.row.1, h.row.2⟩, fun a ha => ?_, fun a ha hle => ?_⟩
    · obtain ⟨hg, hne, hahead, -, hgn⟩ := mem_row.mp ha
      exact h.first a.screen a.face hne hg hgn hahead
    -- no two computers are at the same distance on a row
    · obtain ⟨hg, hne, hahead, -, hgn⟩ := mem_row.mp ha
      suffices hsame : a = ⟨j, g⟩ by rw [hsame]
      by_cases hscreen : a.screen = j
      · subst hscreen
        rw [HasFace.unique hm h.entering hg h.row.2 hgn]
      · exfalso
        have hg' := hg.opposite hm hgn
        have hj' := h.entering.opposite hm h.row.2
        rw [Side.opposite_opposite] at hg' hj'
        obtain ⟨a', ha', han'⟩ := hg'
        obtain ⟨g', hg'', hgn'⟩ := hj'
        have hlt := ha'.pos_lt hm hg han' hgn
        have hlt' := hg''.pos_lt hm h.entering hgn' h.row.2
        have hleast := h.first a.screen a.face hne hg hgn hahead
        simp only [Face.distance_eq] at *
        rcases pos_apart hm hscreen ha' hg hg'' h.entering han' hgn hgn' h.row.2 with hle' | hle' <;> omega

lemma pairwise_cuts (ahead : List Ahead) : (cuts f ahead).Pairwise (· < ·) := by
  rw [cuts]
  generalize (f.start :: f.stop :: ahead.flatMap fun a => [f.commonStart a.face, f.commonStop a.face]) = l
  have hsorted := (List.pairwise_insertionSort (· ≤ ·) l).sublist (List.dedup_sublist _)
  exact hsorted.imp₂ (fun a b hle hne => lt_of_le_of_ne hle hne) (List.nodup_dedup _)

lemma mem_cuts {ahead : List Ahead} {c : ℤ} : c ∈ cuts f ahead ↔
    c = f.start ∨ c = f.stop ∨ ∃ a ∈ ahead, c = f.commonStart a.face ∨ c = f.commonStop a.face := by
  rw [cuts, List.mem_dedup, List.mem_insertionSort, List.mem_cons, List.mem_cons, List.mem_flatMap]
  simp

lemma not_between {cuts : List ℤ} {a b c : ℤ} (hsorted : cuts.Pairwise (· < ·)) (hab : [a, b] <:+: cuts) (hc : c ∈ cuts) :
    c ≤ a ∨ b ≤ c := by
  obtain ⟨l, l', rfl⟩ := hab
  simp only [List.append_assoc, List.mem_append, List.mem_cons, List.pairwise_append, List.pairwise_cons,
    List.cons_append, List.nil_append] at hsorted hc
  rcases hc with hc | rfl | rfl | hc
  · exact .inl (hsorted.2.2 c hc a (.inl rfl)).le
  · exact .inl le_rfl
  · exact .inr le_rfl
  · exact .inr (hsorted.2.1.2.1 c hc).le

lemma nearestAt_between {a b : ℤ} (hab : [a, b] <:+: cuts f (m.ahead side i f)) (hn : a ≤ n) (hn' : n < b) :
    m.nearestAt side i f n = nearest side f (m.ahead side i f) a b := by
  rw [nearestAt, nearest, nearest]
  congr 1
  refine List.filter_congr fun c hc => decide_eq_decide.mpr ?_
  have hstart := not_between (pairwise_cuts _) hab (mem_cuts.mpr (.inr (.inr ⟨c, hc, .inl rfl⟩)))
  have hstop := not_between (pairwise_cuts _) hab (mem_cuts.mpr (.inr (.inr ⟨c, hc, .inr rfl⟩)))
  omega

lemma nearestAt_outside (hout : ¬f.Has n) : m.nearestAt side i f n = none := by
  rw [nearestAt, nearest, List.argmin_eq_none, List.eq_nil_iff_forall_not_mem]
  intro a ha
  exact hout (mem_row.mp ha).2.2.2.1

lemma pick_pieces : ∀ a b, [a, b] <:+: cuts f (m.ahead side i f) → ∀ n, a ≤ n → n < b →
    m.nearestAt side i f n = nearest side f (m.ahead side i f) a b :=
  fun _ _ hab _ hn hn' => nearestAt_between hab hn hn'

lemma outside_pieces (n : ℤ) (h : (∀ c ∈ cuts f (m.ahead side i f), n < c) ∨
    ∀ c ∈ cuts f (m.ahead side i f), c ≤ n) : m.nearestAt side i f n = none := by
  apply nearestAt_outside
  rintro ⟨hstart, hstop⟩
  dsimp only at hstart hstop
  rcases h with h | h
  · have hlt := h f.start (mem_cuts.mpr (.inl rfl))
    omega
  · have hle := h f.stop (mem_cuts.mpr (.inr (.inl rfl)))
    omega

lemma mem_pieces {piece : Run Ahead} : piece ∈ m.pieces side i f ↔ IsRun (m.nearestAt side i f) piece :=
  mem_runs_iff (pairwise_cuts _) pick_pieces outside_pieces piece

lemma nodup_pieces : (m.pieces side i f).Nodup :=
  nodup_runs (pairwise_cuts _) pick_pieces outside_pieces

lemma hasFace_of_mem_pieces {piece : Run Ahead} (h : piece ∈ m.pieces side i f) :
    m.HasFace side.opposite piece.value.screen piece.value.face := by
  obtain ⟨hlt, hall, -⟩ := mem_pieces.mp h
  have hfirst := hall piece.start le_rfl hlt
  rw [nearestAt, nearest] at hfirst
  exact (mem_row.mp (List.argmin_mem hfirst)).1

lemma mem_pieces_symm (hm : m.Drawn) {a b : ℤ} (hf : m.HasFace side i f) (h : ⟨⟨j, g⟩, a, b⟩ ∈ m.pieces side i f) :
    ⟨⟨i, f⟩, a, b⟩ ∈ m.pieces side.opposite j g := by
  have hg := hasFace_of_mem_pieces h
  have hsame (n : ℤ) : m.nearestAt side.opposite j g n = some ⟨i, f⟩ ↔ m.nearestAt side i f n = some ⟨j, g⟩ := by
    rw [nearestAt_eq_some_iff hm hf, nearestAt_eq_some_iff hm hg]
    exact (first_symm_iff hm).symm
  rw [mem_pieces] at h ⊢
  obtain ⟨hlt, hall, hbefore, hbehind⟩ := h
  refine ⟨hlt, fun n hn hn' => (hsame n).mpr (hall n hn hn'), ?_, ?_⟩
  · exact fun heq => hbefore ((hsame _).mp heq)
  · exact fun heq => hbehind ((hsame _).mp heq)

end Pieces

section Stretches

structure Stretch where
  side : Side
  leaving : Ahead
  piece : Run Ahead

namespace Stretch

def swap (t : Stretch) : Stretch := ⟨t.side.opposite, t.piece.value, ⟨t.leaving, t.piece.start, t.piece.stop⟩⟩

lemma swap_swap (t : Stretch) : t.swap.swap = t := by
  obtain ⟨side, leaving, piece⟩ := t
  simp [swap]

end Stretch

def stretches (m : LayoutModel) : List Stretch :=
  Side.all.flatMap fun side => m.screens.zipIdx.flatMap fun s =>
    (faces s.1 side).flatMap fun f => (m.pieces side s.2 f).map fun piece => ⟨side, ⟨s.2, f⟩, piece⟩

lemma mem_stretches {t : Stretch} : t ∈ m.stretches ↔
    m.HasFace t.side t.leaving.screen t.leaving.face ∧ t.piece ∈ m.pieces t.side t.leaving.screen t.leaving.face := by
  simp only [stretches, List.mem_flatMap, List.mem_map]
  constructor
  · rintro ⟨side, -, s, hs, f, hf, piece, hpiece, rfl⟩
    exact ⟨⟨s.1, List.mem_zipIdx_iff_getElem?.mp hs, hf⟩, hpiece⟩
  · rintro ⟨⟨s, hs, hf⟩, hpiece⟩
    exact ⟨t.side, t.side.mem_all, (s, t.leaving.screen), List.mk_mem_zipIdx_iff_getElem?.mpr hs, t.leaving.face, hf,
      t.piece, hpiece, rfl⟩

lemma swap_mem_stretches (hm : m.Drawn) {t : Stretch} (h : t ∈ m.stretches) : t.swap ∈ m.stretches := by
  rw [mem_stretches] at h ⊢
  exact ⟨hasFace_of_mem_pieces h.2, mem_pieces_symm hm h.1 h.2⟩

lemma nodup_flatMap_of_key {α β γ : Type} {l : List α} {f : α → List β} (key : β → γ) (keyOf : α → γ)
    (hl : (l.map keyOf).Nodup) (hf : ∀ a ∈ l, (f a).Nodup) (hkey : ∀ a ∈ l, ∀ b ∈ f a, key b = keyOf a) :
    (l.flatMap f).Nodup := by
  refine List.nodup_flatMap.mpr ⟨hf, (List.pairwise_map.mp hl).imp_of_mem fun {a a'} ha ha' hne b hb hb' => hne ?_⟩
  rw [← hkey a ha b hb, hkey a' ha' b hb']

lemma nodup_zipIdx_snd {α : Type} (l : List α) : (l.zipIdx.map Prod.snd).Nodup := by
  rw [List.zipIdx_map_snd]
  exact List.nodup_range'

lemma nodup_faces (s : ScreenConfig) : (faces s side).Nodup := by
  rw [faces, facesOf, List.Perm.nodup_iff (List.perm_insertionSort _ _)]
  refine nodup_flatMap_of_key Face.display Prod.snd (nodup_zipIdx_snd _) (fun d hd => ?_) fun d _ f hf => ?_
  · have hproper (r : Rect) (hr : r ∈ s.displayRects) : r.Proper := ScreenConfig.proper_displayRects hr
    apply (ordered_openSpans hproper (hproper d.1 (List.fst_mem_of_mem_zipIdx hd))).nodup.map
    intro a b hab
    obtain ⟨hstart, hstop, -⟩ := Face.mk.inj hab
    exact Prod.ext hstart hstop
  · obtain ⟨span, -, rfl⟩ := List.mem_map.mp hf
    rfl

lemma nodup_stretches (m : LayoutModel) : m.stretches.Nodup := by
  refine nodup_flatMap_of_key Stretch.side id (by decide) (fun side _ => ?_) fun side _ t ht => ?_
  · refine nodup_flatMap_of_key (fun t => t.leaving.screen) Prod.snd (nodup_zipIdx_snd _) (fun s _ => ?_)
      fun s _ t ht => ?_
    · refine nodup_flatMap_of_key (fun t => t.leaving.face) id (by simpa using nodup_faces s.1) (fun f _ => ?_)
        fun f _ t ht => ?_
      · apply nodup_pieces.map
        intro p q hpq
        exact (Stretch.mk.inj hpq).2.2
      · obtain ⟨piece, -, rfl⟩ := List.mem_map.mp ht
        rfl
    · simp only [List.mem_flatMap, List.mem_map] at ht
      obtain ⟨f, -, piece, -, rfl⟩ := ht
      rfl
  · simp only [List.mem_flatMap, List.mem_map] at ht
    obtain ⟨s, -, f, -, piece, -, rfl⟩ := ht
    rfl

lemma perm_swap_stretches (hm : m.Drawn) : (m.stretches.map Stretch.swap).Perm m.stretches := by
  have hinjective : Function.Injective Stretch.swap := (Function.Involutive.injective Stretch.swap_swap)
  rw [List.perm_ext_iff_of_nodup ((nodup_stretches m).map hinjective) (nodup_stretches m)]
  intro t
  rw [List.mem_map]
  constructor
  · rintro ⟨u, hu, rfl⟩
    exact swap_mem_stretches hm hu
  · intro ht
    exact ⟨t.swap, swap_mem_stretches hm ht, t.swap_swap⟩

end Stretches

def endsOf (m : LayoutModel) (t : Stretch) : Option Ends :=
  m.screens[t.leaving.screen]?.bind fun s =>
    (m.link t.side s t.leaving.screen t.leaving.face t.piece).map ScreenLink.ends

lemma links_map_ends (m : LayoutModel) : m.links.map ScreenLink.ends = m.stretches.filterMap m.endsOf := by
  rw [links, stretches, List.map_flatMap, List.filterMap_flatMap]
  congr 1
  funext side
  rw [List.map_flatMap, List.filterMap_flatMap]
  refine List.flatMap_congr fun s hs => ?_
  rw [List.map_flatMap, List.filterMap_flatMap]
  refine List.flatMap_congr fun f _ => ?_
  rw [List.map_filterMap, List.filterMap_map]
  refine List.filterMap_congr fun piece _ => ?_
  simp [endsOf, List.mem_zipIdx_iff_getElem?.mp hs]

lemma endsOf_swap (m : LayoutModel) (t : Stretch) : m.endsOf t.swap = (m.endsOf t).map Ends.back := by
  obtain ⟨side, ⟨i, f⟩, ⟨⟨j, g⟩, a, b⟩⟩ := t
  simp only [endsOf, Stretch.swap, link, Side.opposite_opposite]
  cases m.screens[i]? with
  | none => cases m.screens[j]? <;> rfl
  | some s =>
    cases m.screens[j]? with
    | none => rfl
    | some u =>
      simp only [Option.bind_some, or_comm]
      split
      · rfl
      · rfl

theorem perm_links_back (hm : m.Drawn) :
    (m.links.map fun l => l.ends.back).Perm (m.links.map ScreenLink.ends) := by
  have hback : (m.links.map fun l => l.ends.back) = (m.stretches.map Stretch.swap).filterMap m.endsOf := by
    rw [← Function.comp_def, ← List.map_map, links_map_ends, List.map_filterMap, List.filterMap_map]
    refine List.filterMap_congr fun t _ => ?_
    exact (endsOf_swap m t).symm
  rw [hback, links_map_ends]
  exact (perm_swap_stretches hm).filterMap _

theorem links_back (m : LayoutModel) (hdesktops : AllApart m.screens)
    (hdisplays : ∀ s ∈ m.screens, s.displayRects.Pairwise fun d e => d.intersects e = false) (l : ScreenLink)
    (hl : l ∈ m.links) : (∃ back ∈ m.links, back.ends = l.ends.back) ∧
      (m.links.countP fun back => decide (back.ends = l.ends.back)) =
        m.links.countP fun l' => decide (l'.ends = l.ends) := by
  have hm : m.Drawn := ⟨hdesktops, hdisplays⟩
  have hcount := (perm_links_back hm).countP_eq fun e => decide (e = l.ends.back)
  rw [List.countP_map, List.countP_map] at hcount
  have hsame : ((fun e => decide (e = l.ends.back)) ∘ fun l' : ScreenLink => l'.ends.back) =
      fun l' : ScreenLink => decide (l'.ends = l.ends) := by
    funext l'
    refine decide_eq_decide.mpr ⟨fun heq => ?_, fun heq => congrArg Ends.back heq⟩
    exact (Function.Involutive.injective Ends.back_back) heq
  rw [hsame] at hcount
  refine ⟨?_, hcount.symm⟩
  have hpos : 0 < m.links.countP fun l' => decide (l'.ends = l.ends) :=
    List.countP_pos_iff.mpr ⟨l, hl, by simp⟩
  rw [hcount] at hpos
  obtain ⟨back, hback, hends⟩ := List.countP_pos_iff.mp hpos
  exact ⟨back, hback, by simpa using hends⟩

/-- Two displays of a quarter of the height, of which one is drawn twice as high and reaches behind the other. -/
def leftScreen : ScreenConfig :=
  { ScreenConfig.new ['a'] with
    displays := [⟨0, 636, 2000, 2000, 0, 0⟩, ⟨2000, 0, 636, 636, 0, 0⟩, ⟨728, 0, 636, 636, 336, 337⟩] }

def rightScreen : ScreenConfig :=
  { ScreenConfig.new ['b'] with
    x := 5000
    displays := [⟨636, 636, 2000, 2000, 0, 0⟩, ⟨0, 0, 636, 636, 0, 0⟩, ⟨636, 0, 636, 636, 336, 337⟩] }

def folded : LayoutModel :=
  { empty none with screens := [leftScreen, { ScreenConfig.new ['c'] with x := 2700, y := 954 }, rightScreen] }

theorem links_back_folded : ∃ l ∈ folded.links, l.ends = ⟨0, 2, .right, (0, 1206), (0, 1206)⟩ ∧
    ∃ back ∈ folded.links, back.ends = l.ends.back := by
  have hlink : ∃ l ∈ folded.links, l.ends = ⟨0, 2, .right, (0, 1206), (0, 1206)⟩ := by decide +kernel
  obtain ⟨l, hl, hends⟩ := hlink
  exact ⟨l, hl, hends, (links_back folded (by decide +kernel) (by decide +kernel) l hl).1⟩

theorem links_back_twice :
    ¬∀ m : LayoutModel, AllApart m.screens →
      (∀ s ∈ m.screens, s.displayRects.Pairwise fun d e => d.intersects e = false) →
      ∀ l ∈ m.links, (m.links.countP fun back => decide (back.ends = l.ends.back)) = 1 := by
  intro h
  have hone := h folded (by decide +kernel) (by decide +kernel)
  revert hone
  decide +kernel

end LayoutModel

end InputLeap.Gui
