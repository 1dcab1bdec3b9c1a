import InputLeap.Server.ConfigNames
import InputLeap.Server.ReadInvariants
import Mathlib.Order.Interval.Set.Disjoint

/-! The links of a screen through all operations on them. The intervals of a side stay disjoint, and so the search through
one or two neighbours in the order of the map finds what a search through all of them would. -/

namespace InputLeap

open InputLeap.Lib

namespace CellEdge

variable {d e : CellEdge}

def range (e : CellEdge) : Set ℚ := Set.Ico e.first e.second

def Intersects (d e : CellEdge) : Prop := d.side = e.side ∧ (d.range ∩ e.range).Nonempty

lemma overlaps_iff (hd : d.first < d.second) (he : e.first < e.second) : d.overlaps e = true ↔ d.Intersects e := by
  rw [overlaps, decide_eq_true_eq, Intersects]
  apply and_congr_right
  intro _
  rw [range, range, Set.Ico_inter_Ico, Set.nonempty_Ico, max_lt_iff, lt_min_iff, lt_min_iff]
  constructor
  · rintro (⟨h, h'⟩ | ⟨h, h'⟩ | ⟨h, h'⟩ | ⟨h, h'⟩)
    · exact ⟨⟨hd, h'⟩, lt_of_le_of_lt h hd, he⟩
    · exact ⟨⟨hd, lt_of_lt_of_le hd h'⟩, h, he⟩
    · exact ⟨⟨hd, lt_of_le_of_lt h he⟩, h', he⟩
    · exact ⟨⟨hd, h⟩, lt_of_lt_of_le he h', he⟩
  · rintro ⟨⟨-, h⟩, h', -⟩
    rcases le_total e.first d.first with hle | hle
    · exact .inl ⟨hle, h⟩
    · exact .inr (.inr (.inl ⟨hle, h'⟩))

lemma isInside_iff {x : ℚ} : e.isInside x = true ↔ x ∈ e.range := by
  rw [isInside, decide_eq_true_eq]
  rfl

end CellEdge

namespace Cell

def removeSide (c : Cell) (side : Direction) : Cell :=
  { c with neighbors := c.neighbors.filter fun e => decide (e.1.side ≠ side) }

def removeAt (c : Cell) (side : Direction) (position : ℚ) : Cell :=
  { c with neighbors :=
      ⟨c.neighbors.entries.eraseP fun e => decide (e.1.side = side) && e.1.isInside position,
        c.neighbors.sorted.sublist List.eraseP_sublist⟩ }

end Cell

/-- The constructor of an edge asserts that it is a proper one. -/
abbrev ProperEdge : Type := {e : CellEdge // e.Proper}

inductive CellOp
  | add (src : ProperEdge) (dst : CellEdge)
  | removeSide (side : Direction)
  | removeAt (side : Direction) (position : ℚ)
  | removeLinks (isOld : Name → Bool)
  | rename (isOld : Name → Bool) (newName : Name)

def CellOp.run (c : Cell) : CellOp → Cell
  | .add src dst => (c.add src dst).getD c
  | .removeSide side => c.removeSide side
  | .removeAt side position => c.removeAt side position
  | .removeLinks isOld => c.removeLinks isOld
  | .rename isOld newName => c.rename isOld newName

namespace Cell

variable {c : Cell} {src : CellEdge} {dst : CellEdge} {e link : CellEdge × CellEdge}

structure SidesInv (c : Cell) : Prop where
  proper : ∀ e ∈ c.neighbors.entries, e.1.Proper
  apart : c.Apart

lemma SidesInv.mono {d : Cell} (h : c.SidesInv)
    (hsub : ∀ e ∈ d.neighbors.entries, ∃ e' ∈ c.neighbors.entries, e'.1 = e.1) : d.SidesInv := by
  constructor
  · intro e he
    obtain ⟨e', he', heq⟩ := hsub e he
    exact heq ▸ h.proper e' he'
  · intro a ha b hb hside hlt
    obtain ⟨a', ha', haeq⟩ := hsub a ha
    obtain ⟨b', hb', hbeq⟩ := hsub b hb
    rw [← haeq, ← hbeq] at hside hlt ⊢
    exact h.apart a' ha' b' hb' hside hlt

lemma SidesInv.run (h : c.SidesInv) (op : CellOp) : (op.run c).SidesInv := by
  cases op with
  | add src dst =>
    rw [CellOp.run]
    cases hadd : c.add src.1 dst with
    | none => exact h
    | some d =>
      refine ⟨?_, h.apart.add hadd⟩
      intro e he
      rcases (mem_add hadd).mp he with rfl | ⟨he, -⟩
      · exact src.2
      · exact h.proper e he
  | removeSide side => exact h.mono fun e he => ⟨e, (OrdMap.mem_filter.mp he).1, rfl⟩
  | removeAt side position => exact h.mono fun e he => ⟨e, List.mem_of_mem_eraseP he, rfl⟩
  | removeLinks isOld => exact h.mono fun e he => ⟨e, (OrdMap.mem_filter.mp he).1, rfl⟩
  | rename isOld newName =>
    apply h.mono
    intro e he
    obtain ⟨e', he', heq⟩ := OrdMap.mem_mapValues.mp he
    exact ⟨e', he', by rw [← heq]⟩

lemma sidesInv_runs (ops : List CellOp) (h : c.SidesInv) : (ops.foldl CellOp.run c).SidesInv := by
  induction ops generalizing c with
  | nil => exact h
  | cons op ops ih => exact ih (h.run op)

lemma sidesInv_empty : Cell.empty.SidesInv := by
  constructor
  · intro e he
    cases he
  · intro e he
    cases he

lemma SidesInv.eq_of_intersects (h : c.SidesInv) {d : CellEdge × CellEdge} (hd : d ∈ c.neighbors.entries)
    (he : e ∈ c.neighbors.entries) (hinter : d.1.Intersects e.1) : d = e := by
  obtain ⟨hside, x, hxd, hxe⟩ := hinter
  rcases lt_trichotomy d.1.first e.1.first with hlt | heq | hgt
  · have := h.apart d hd e he hside hlt
    exact absurd (hxd.2.trans_le this) hxe.1.not_gt
  · exact OrdMap.entry_unique hd he (CellEdge.key_eq.mpr ⟨hside, heq⟩)
  · have := h.apart e he d hd hside.symm hgt
    exact absurd (hxe.2.trans_le this) hxd.1.not_gt

lemma SidesInv.overlaps_iff (h : c.SidesInv) (hsrc : src.Proper) :
    c.overlaps src = true ↔ ∃ e ∈ c.neighbors.entries, e.1.Intersects src := by
  constructor
  · intro hover
    have hmem : ∃ e ∈ c.neighbors.entries, e.1.overlaps src = true := by
      rw [overlaps, Bool.or_eq_true, Option.any_eq_true, Option.any_eq_true] at hover
      rcases hover with ⟨e, he, hover⟩ | ⟨e, he, hover⟩
      · exact ⟨e, OrdMap.mem_of_firstGt? he, hover⟩
      · exact ⟨e, (List.mem_filter.mp (List.mem_of_getLast? he)).1, hover⟩
    obtain ⟨e, he, hover⟩ := hmem
    exact ⟨e, he, (CellEdge.overlaps_iff (h.proper e he).lt hsrc.lt).mp hover⟩
  · rintro ⟨e, he, hside, x, hxe, hxsrc⟩
    by_contra hover
    have hover : c.overlaps src = false := by simpa using hover
    rcases lt_trichotomy e.1.first src.first with hlt | heq | hgt
    · have := h.apart.before (.inr hover) he hside hlt
      exact absurd (hxe.2.trans_le this) hxsrc.1.not_gt
    · have hkey : e.1.key = src.key := CellEdge.key_eq.mpr ⟨hside, heq⟩
      obtain ⟨d, hlast, hd, hed, hdsrc⟩ := OrdMap.lastLe?_of_mem he hkey.le
      have hsame : e = d := OrdMap.entry_unique he hd (le_antisymm hed (hkey ▸ hdsrc))
      have hnot := lastLe_of_overlaps hover hlast
      rw [← hsame, overlaps_eq_false_iff hside] at hnot
      exact hnot (.inl ⟨heq.ge, heq ▸ hsrc.lt⟩)
    · have := h.apart.behind (.inr hover) he hside.symm hgt
      exact absurd (hxsrc.2.trans_le this) hxe.1.not_gt

lemma hasEdge_iff : c.hasEdge src = true ↔ ∃ e ∈ c.neighbors.entries, e.1.same src = true := by
  constructor
  · intro h
    obtain ⟨e, he, hsame⟩ := same_of_hasEdge h
    exact ⟨e, he, decide_eq_true hsame⟩
  · rintro ⟨e, he, hsame⟩
    obtain ⟨hside, hfirst, -⟩ := of_decide_eq_true hsame
    have hkey : e.1.key = src.key := CellEdge.key_eq.mpr ⟨hside, hfirst⟩
    rw [hasEdge, Option.any_eq_true]
    cases hfind : c.neighbors.entries.find? fun e => decide (e.1.key = src.key) with
    | none => exact absurd (List.find?_eq_none.mp hfind e he) (by simp [hkey])
    | some d =>
      have hdkey : d.1.key = src.key := by simpa using List.find?_some hfind
      have hd := OrdMap.entry_unique (List.mem_of_find?_eq_some hfind) he (hdkey.trans hkey.symm)
      exact ⟨d, rfl, hd ▸ hsame⟩

lemma SidesInv.add_eq_none_iff (h : c.SidesInv) (hsrc : src.Proper) :
    c.add src dst = none ↔ ∃ e ∈ c.neighbors.entries, e.1.Intersects src ∧ e.1.same src = false := by
  have hadd : c.add src dst = none ↔ c.hasEdge src = false ∧ c.overlaps src = true := by
    rw [add]
    split_ifs with hif
    · simpa using hif
    · simpa using hif
  rw [hadd, h.overlaps_iff hsrc, ← Bool.not_eq_true, hasEdge_iff]
  constructor
  · rintro ⟨hnone, e, he, hinter⟩
    refine ⟨e, he, hinter, ?_⟩
    rw [← Bool.not_eq_true]
    exact fun hsame => hnone ⟨e, he, hsame⟩
  · rintro ⟨e, he, hinter, hdiff⟩
    refine ⟨?_, e, he, hinter⟩
    rintro ⟨d, hd, hsame⟩
    obtain ⟨hside, hfirst, hsecond⟩ := of_decide_eq_true hsame
    have hrange : d.1.range = src.range := by rw [CellEdge.range, CellEdge.range, hfirst, hsecond]
    have hboth : d.1.Intersects e.1 := by
      refine ⟨hside.trans hinter.1.symm, ?_⟩
      rw [hrange, Set.inter_comm]
      exact hinter.2
    have := h.eq_of_intersects hd he hboth
    rw [← this, hsame] at hdiff
    cases hdiff

lemma SidesInv.getLink_iff (h : c.SidesInv) {side : Direction} {x : ℚ} :
    c.getLink side x = some link ↔ link ∈ c.neighbors.entries ∧ link.1.side = side ∧ x ∈ link.1.range := by
  constructor
  · intro hget
    rw [getLink] at hget
    cases hlast : c.neighbors.lastLe? ⟨[], side, x, x⟩ with
    | none =>
      rw [hlast] at hget
      cases hget
    | some e =>
      rw [hlast] at hget
      dsimp only at hget
      split_ifs at hget with hinside
      cases Option.some.inj hget
      exact ⟨(List.mem_filter.mp (List.mem_of_getLast? hlast)).1, hinside.1, CellEdge.isInside_iff.mp hinside.2⟩
  · rintro ⟨hlink, hside, hx⟩
    have hle : link.1.key ≤ (⟨[], side, x, x⟩ : CellEdge).key := CellEdge.key_le.mpr (.inr ⟨hside, hx.1⟩)
    obtain ⟨d, hlast, hd, hld, hdx⟩ := OrdMap.lastLe?_of_mem hlink hle
    -- the last that starts in front of the position is the one around it
    have hsame : link = d := by
      rcases CellEdge.key_le.mp hdx with hlt | ⟨hdside, hdfirst⟩
      · rcases CellEdge.key_le.mp hld with hlt' | ⟨hside', -⟩
        · rw [hside] at hlt'
          exact absurd hlt hlt'.asymm
        · rw [← hside', hside] at hlt
          exact absurd hlt (lt_irrefl _)
      · have hdside : d.1.side = side := hdside
        rcases CellEdge.key_le.mp hld with hlt' | ⟨hside', hfirst⟩
        · rw [hside, hdside] at hlt'
          exact absurd hlt' (lt_irrefl _)
        · rcases hfirst.eq_or_lt with heq | hlt
          · exact OrdMap.entry_unique hlink hd (CellEdge.key_eq.mpr ⟨hside', heq⟩)
          · have := h.apart link hlink d hd hside' hlt
            exact absurd (hx.2.trans_le this) (not_lt.mpr hdfirst)
    rw [getLink, hlast, ← hsame]
    exact if_pos ⟨hside, CellEdge.isInside_iff.mpr hx⟩

lemma SidesInv.getLink_eq_find (h : c.SidesInv) (side : Direction) (x : ℚ) :
    c.getLink side x = c.neighbors.entries.find? fun e => decide (e.1.side = side) && e.1.isInside x := by
  cases hfind : c.neighbors.entries.find? fun e => decide (e.1.side = side) && e.1.isInside x with
  | none =>
    rw [Option.eq_none_iff_forall_ne_some]
    intro link hlink
    obtain ⟨hmem, hside, hx⟩ := h.getLink_iff.mp hlink
    exact absurd (List.find?_eq_none.mp hfind link hmem) (by simp [hside, CellEdge.isInside_iff.mpr hx])
  | some link =>
    have hlink := List.find?_some hfind
    rw [Bool.and_eq_true, decide_eq_true_eq] at hlink
    exact h.getLink_iff.mpr ⟨List.mem_of_find?_eq_some hfind, hlink.1, CellEdge.isInside_iff.mp hlink.2⟩

lemma SidesInv.pairwise (h : c.SidesInv) : c.neighbors.entries.Pairwise fun a b => ¬ a.1.Intersects b.1 := by
  apply List.Pairwise.imp_of_mem _ c.neighbors.sorted
  intro a b ha hb hlt hinter
  rw [h.eq_of_intersects ha hb hinter] at hlt
  exact hlt.false

end Cell

structure Cell.Scanned (c : Cell) : Prop where
  disjoint : c.neighbors.entries.Pairwise fun a b => ¬ a.1.Intersects b.1
  add : ∀ (src : ProperEdge) (dst : CellEdge),
    c.add src.1 dst = none ↔ ∃ e ∈ c.neighbors.entries, e.1.Intersects src.1 ∧ e.1.same src.1 = false
  getLink_eq : ∀ side x,
    c.getLink side x = c.neighbors.entries.find? fun e => decide (e.1.side = side) && e.1.isInside x
  getLink : ∀ side x link,
    c.getLink side x = some link ↔ link ∈ c.neighbors.entries ∧ link.1.side = side ∧ x ∈ link.1.range
  overlaps : ∀ edge : ProperEdge, c.overlaps edge.1 = true ↔ ∃ e ∈ c.neighbors.entries, e.1.Intersects edge.1

theorem scanned_of_runs (ops : List CellOp) : (ops.foldl CellOp.run Cell.empty).Scanned := by
  have h := Cell.sidesInv_runs ops Cell.sidesInv_empty
  constructor
  · exact h.pairwise
  · intro src dst
    exact h.add_eq_none_iff src.2
  · exact h.getLink_eq_find
  · intro side x link
    exact h.getLink_iff
  · intro edge
    exact h.overlaps_iff edge.2

end InputLeap
