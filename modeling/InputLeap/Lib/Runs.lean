import Mathlib.Algebra.Order.Ring.Int
import Mathlib.Data.List.Infix
import Mathlib.Data.List.Nodup

/-! A line of integers cut into stretches, each with a value or none, and the runs of the same value in it. -/

namespace InputLeap.Lib

structure Run (α : Type) where
  value : α
  start : ℤ
  stop : ℤ
  deriving DecidableEq

variable {α : Type}

/-- A stretch of one value that goes on neither before it nor behind it. -/
def IsRun (f : ℤ → Option α) (r : Run α) : Prop :=
  r.start < r.stop ∧ (∀ n, r.start ≤ n → n < r.stop → f n = some r.value) ∧ f (r.start - 1) ≠ some r.value ∧
    f r.stop ≠ some r.value

section

variable [DecidableEq α]

def extendRuns (runs : List (Run α)) (start stop : ℤ) : Option α → List (Run α)
  | none => runs
  | some a =>
    match runs with
    | [] => [⟨a, start, stop⟩]
    | r :: rs => if r.value = a ∧ r.stop = start then ⟨r.value, r.start, stop⟩ :: rs else ⟨a, start, stop⟩ :: r :: rs

def runsFrom (pick : ℤ → ℤ → Option α) : List (Run α) → List ℤ → List (Run α)
  | runs, start :: stop :: cuts => runsFrom pick (extendRuns runs start stop (pick start stop)) (stop :: cuts)
  | runs, _ => runs

def runs (pick : ℤ → ℤ → Option α) (cuts : List ℤ) : List (Run α) := (runsFrom pick [] cuts).reverse

end

lemma isRun_extend_iff {f g : ℤ → Option α} {a : α} {s c d : ℤ} (hsc : s ≤ c) (hcd : c < d)
    (hsame : ∀ n < c, g n = f n) (hend : ∀ n, c ≤ n → f n = none) (hvalue : ∀ n, s ≤ n → n < d → g n = some a)
    (hbefore : g (s - 1) ≠ some a) (hbehind : ∀ n, d ≤ n → g n = none) (t : Run α) :
    IsRun g t ↔ t = ⟨a, s, d⟩ ∨ IsRun f t ∧ t.stop ≤ s := by
  obtain ⟨v, start, stop⟩ := t
  constructor
  · rintro ⟨hlt, hall, hfirst, hlast⟩
    dsimp only at hlt hall hfirst hlast
    have hle : stop ≤ d := by
      by_contra hgt
      have hout := hall (stop - 1) (by omega) (by omega)
      rw [hbehind _ (by omega)] at hout
      simp at hout
    by_cases hs : stop ≤ s
    · refine .inr ⟨⟨hlt, fun n hn hn' => ?_, ?_, ?_⟩, hs⟩
      · exact (hsame n (by change n < stop at hn'; omega)).symm.trans (hall n hn hn')
      · rw [← hsame _ (by change start - 1 < c; omega)]
        exact hfirst
      · by_cases hc : stop < c
        · rw [← hsame _ hc]
          exact hlast
        · rw [hend _ (not_lt.mp hc)]
          simp
    -- the run reaches into the stretch, so it has its value, its end and its beginning
    · obtain rfl : a = v := by
        have hv := hall (stop - 1) (by omega) (by omega)
        rw [hvalue _ (by omega) (by omega)] at hv
        exact Option.some.inj hv
      have hstop : stop = d := by
        by_contra hne
        exact hlast (hvalue stop (by omega) (by omega))
      have hstart : start = s := by
        rcases lt_trichotomy start s with hlt' | heq | hgt
        · exact absurd (hall (s - 1) (by omega) (by omega)) hbefore
        · exact heq
        · exact absurd (hvalue (start - 1) (by omega) (by omega)) hfirst
      rw [hstop, hstart]
      exact .inl rfl
  · rintro (heq | ⟨⟨hlt, hall, hfirst, hlast⟩, hs⟩)
    · obtain ⟨rfl, rfl, rfl⟩ := Run.mk.inj heq
      refine ⟨by change start < stop; omega, hvalue, hbefore, ?_⟩
      rw [hbehind _ le_rfl]
      simp
    · dsimp only at hlt hall hfirst hlast hs
      refine ⟨hlt, fun n hn hn' => ?_, ?_, ?_⟩
      · exact (hsame n (by change n < stop at hn'; omega)).trans (hall n hn hn')
      · rw [hsame _ (by change start - 1 < c; omega)]
        exact hfirst
      · by_cases hlt' : stop < s
        · rw [hsame _ (by change stop < c; omega)]
          exact hlast
        · obtain rfl : stop = s := by omega
          have hv := hall (stop - 1) (by omega) (by omega)
          rw [← hsame _ (by omega)] at hv
          intro heq
          change g stop = some v at heq
          rw [hvalue _ le_rfl (by omega)] at heq
          obtain rfl := Option.some.inj heq
          exact hbefore hv

/-- The runs of a function that has no value from `c` on, the last one first. -/
structure RunsUpTo (f : ℤ → Option α) (c : ℤ) (runs : List (Run α)) : Prop where
  mem_iff : ∀ r, r ∈ runs ↔ IsRun f r
  sorted : runs.Pairwise fun later earlier => earlier.stop ≤ later.start
  last : ∀ a, f (c - 1) = some a → ∃ r rs, runs = r :: rs ∧ r.value = a ∧ r.stop = c

lemma RunsUpTo.lt {f : ℤ → Option α} {c : ℤ} {runs : List (Run α)} (h : RunsUpTo f c runs) {r : Run α} (hr : r ∈ runs) :
    r.start < r.stop :=
  ((h.mem_iff r).mp hr).1

lemma RunsUpTo.nodup {f : ℤ → Option α} {c : ℤ} {runs : List (Run α)} (h : RunsUpTo f c runs) : runs.Nodup := by
  refine h.sorted.imp_of_mem fun {r s} hr _ hle heq => ?_
  subst heq
  exact absurd (h.lt hr) (not_lt.mpr hle)

lemma RunsUpTo.stop_le {f : ℤ → Option α} {c : ℤ} {runs : List (Run α)} (h : RunsUpTo f c runs)
    (hend : ∀ n, c ≤ n → f n = none) {r : Run α} (hr : r ∈ runs) : r.stop ≤ c := by
  obtain ⟨hlt, hall, -⟩ := (h.mem_iff r).mp hr
  by_contra hgt
  have hout := hall (r.stop - 1) (by omega) (by omega)
  rw [hend _ (by omega)] at hout
  simp at hout

section

variable [DecidableEq α] {f g : ℤ → Option α} {c d : ℤ} {acc : List (Run α)}

lemma RunsUpTo.extend (h : RunsUpTo f c acc) (hcd : c < d) (hsame : ∀ n < c, g n = f n)
    (hend : ∀ n, c ≤ n → f n = none) (hbehind : ∀ n, d ≤ n → g n = none) {v : Option α}
    (hvalue : ∀ n, c ≤ n → n < d → g n = v) : RunsUpTo g d (extendRuns acc c d v) := by
  cases v with
  | none =>
    have heq : g = f := by
      funext n
      by_cases hn : n < c
      · exact hsame n hn
      · rw [hend n (not_lt.mp hn)]
        by_cases hn' : n < d
        · exact hvalue n (not_lt.mp hn) hn'
        · exact hbehind n (not_lt.mp hn')
    refine ⟨heq ▸ h.mem_iff, h.sorted, fun a ha => ?_⟩
    rw [hvalue _ (by omega) (by omega)] at ha
    simp at ha
  | some a =>
    -- the head is joined if the value goes on, and only the head can end where the stretch begins
    by_cases hgoes : f (c - 1) = some a
    · obtain ⟨r, rs, rfl, rfl, rfl⟩ := h.last a hgoes
      obtain ⟨hlt, hall, hfirst, -⟩ := (h.mem_iff r).mp List.mem_cons_self
      obtain ⟨hhead, htail⟩ := List.pairwise_cons.mp h.sorted
      have hrun := isRun_extend_iff (s := r.start) hlt.le hcd hsame hend
        (fun n hn hn' => by
          by_cases hnc : n < r.stop
          · exact (hsame n hnc).trans (hall n hn hnc)
          · exact hvalue n (not_lt.mp hnc) hn')
        (by rw [hsame _ (by omega)]; exact hfirst) hbehind
      have hextend : extendRuns (r :: rs) r.stop d (some r.value) = ⟨r.value, r.start, d⟩ :: rs := by
        simp [extendRuns]
      rw [hextend]
      refine ⟨fun t => ?_, List.pairwise_cons.mpr ⟨hhead, htail⟩, fun b hb => ?_⟩
      · rw [hrun, List.mem_cons]
        refine or_congr_right ⟨fun ht => ⟨(h.mem_iff t).mp (List.mem_cons_of_mem r ht), hhead t ht⟩, fun ht => ?_⟩
        rcases List.mem_cons.mp ((h.mem_iff t).mpr ht.1) with rfl | hmem
        · exact absurd hlt (not_lt.mpr ht.2)
        · exact hmem
      · rw [hvalue _ (by omega) (by omega)] at hb
        exact ⟨_, rs, rfl, Option.some.inj hb, rfl⟩
    · have hrun := isRun_extend_iff (s := c) le_rfl hcd hsame hend hvalue
        (by rw [hsame _ (by omega)]; exact hgoes) hbehind
      have hextend : extendRuns acc c d (some a) = ⟨a, c, d⟩ :: acc := by
        cases acc with
        | nil => rfl
        | cons r rs =>
          rw [extendRuns]
          refine if_neg fun heq => hgoes ?_
          obtain ⟨hlt, hall, -⟩ := (h.mem_iff r).mp List.mem_cons_self
          rw [← heq.1, ← heq.2]
          exact hall _ (by omega) (by omega)
      rw [hextend]
      refine ⟨fun t => ?_, List.pairwise_cons.mpr ⟨fun t ht => h.stop_le hend ht, h.sorted⟩, fun b hb => ?_⟩
      · rw [hrun, List.mem_cons]
        exact or_congr_right ⟨fun ht => ⟨(h.mem_iff t).mp ht, h.stop_le hend ht⟩, fun ht => (h.mem_iff t).mpr ht.1⟩
      · rw [hvalue _ (by omega) (by omega)] at hb
        exact ⟨_, acc, rfl, Option.some.inj hb, rfl⟩

variable {pick : ℤ → ℤ → Option α} {cuts : List ℤ}

def upTo (f : ℤ → Option α) (c n : ℤ) : Option α := if n < c then f n else none

omit [DecidableEq α] in
lemma upTo_of_lt {c n : ℤ} (h : n < c) : upTo f c n = f n := if_pos h

omit [DecidableEq α] in
lemma upTo_of_le {c n : ℤ} (h : c ≤ n) : upTo f c n = none := if_neg (not_lt.mpr h)

lemma runsUpTo_runsFrom (h : RunsUpTo (upTo f c) c acc) (hsorted : (c :: cuts).Pairwise (· < ·))
    (hpick : ∀ a b, [a, b] <:+: c :: cuts → ∀ n, a ≤ n → n < b → f n = pick a b)
    (hend : ∀ n, (∀ d ∈ c :: cuts, d ≤ n) → f n = none) : ∃ d, RunsUpTo f d (runsFrom pick acc (c :: cuts)) := by
  induction cuts generalizing c acc with
  | nil =>
    have heq : upTo f c = f := by
      funext n
      by_cases hn : n < c
      · exact upTo_of_lt hn
      · rw [upTo_of_le (not_lt.mp hn), hend n (by simpa using hn)]
    exact ⟨c, heq ▸ h⟩
  | cons d cuts ih =>
    obtain ⟨hfirst, hrest⟩ := List.pairwise_cons.mp hsorted
    have hcd : c < d := hfirst d List.mem_cons_self
    rw [runsFrom]
    apply ih _ hrest
    · intro a b hab n
      exact hpick a b (hab.trans (List.suffix_cons c _).isInfix) n
    · intro n hn
      refine hend n fun e he => ?_
      rcases List.mem_cons.mp he with rfl | he
      · exact hcd.le.trans (hn d List.mem_cons_self)
      · exact hn e he
    · apply h.extend hcd
      · intro n hn
        rw [upTo_of_lt hn, upTo_of_lt (hn.trans hcd)]
      · exact fun n hn => upTo_of_le hn
      · exact fun n hn => upTo_of_le hn
      · intro n hn hn'
        rw [upTo_of_lt hn']
        exact hpick c d ⟨[], cuts, rfl⟩ n hn hn'

lemma runsUpTo_runs (hsorted : cuts.Pairwise (· < ·))
    (hpick : ∀ a b, [a, b] <:+: cuts → ∀ n, a ≤ n → n < b → f n = pick a b)
    (hout : ∀ n, (∀ c ∈ cuts, n < c) ∨ (∀ c ∈ cuts, c ≤ n) → f n = none) :
    ∃ d, RunsUpTo f d (runsFrom pick [] cuts) := by
  cases cuts with
  | nil =>
    have hnone (n : ℤ) : f n = none := hout n (.inl (by simp))
    refine ⟨0, fun r => ⟨by simp [runsFrom], fun hr => ?_⟩, .nil, fun a ha => ?_⟩
    · have hin := hr.2.1 r.start le_rfl hr.1
      simp [hnone] at hin
    · simp [hnone] at ha
  | cons c cuts =>
    obtain ⟨hfirst, -⟩ := List.pairwise_cons.mp hsorted
    have hnone (n : ℤ) : upTo f c n = none := by
      by_cases hn : n < c
      · rw [upTo_of_lt hn]
        refine hout n (.inl fun d hd => ?_)
        rcases List.mem_cons.mp hd with rfl | hd
        · exact hn
        · exact hn.trans (hfirst d hd)
      · exact upTo_of_le (not_lt.mp hn)
    refine runsUpTo_runsFrom ⟨fun r => ⟨by simp, fun hr => ?_⟩, .nil, fun a ha => ?_⟩ hsorted hpick
      fun n hn => hout n (.inr hn)
    · have hin := hr.2.1 r.start le_rfl hr.1
      simp [hnone] at hin
    · simp [hnone] at ha

lemma mem_runs_iff (hsorted : cuts.Pairwise (· < ·))
    (hpick : ∀ a b, [a, b] <:+: cuts → ∀ n, a ≤ n → n < b → f n = pick a b)
    (hout : ∀ n, (∀ c ∈ cuts, n < c) ∨ (∀ c ∈ cuts, c ≤ n) → f n = none) (r : Run α) :
    r ∈ runs pick cuts ↔ IsRun f r := by
  obtain ⟨d, hruns⟩ := runsUpTo_runs hsorted hpick hout
  rw [runs, List.mem_reverse]
  exact hruns.mem_iff r

lemma nodup_runs (hsorted : cuts.Pairwise (· < ·))
    (hpick : ∀ a b, [a, b] <:+: cuts → ∀ n, a ≤ n → n < b → f n = pick a b)
    (hout : ∀ n, (∀ c ∈ cuts, n < c) ∨ (∀ c ∈ cuts, c ≤ n) → f n = none) : (runs pick cuts).Nodup := by
  obtain ⟨d, hruns⟩ := runsUpTo_runs hsorted hpick hout
  exact List.nodup_reverse.mpr hruns.nodup

end

end InputLeap.Lib
