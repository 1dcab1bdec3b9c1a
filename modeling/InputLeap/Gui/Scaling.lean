import InputLeap.Gui.Growth

/-! Whether the displays of a computer lie in the shared space as they do in its own pixels. Scales count thousandths, so
what rounding does to an offset or a length shows in its product with the scale, modulo a thousand. -/

namespace InputLeap.Gui

open InputLeap.Lib

inductive Axis
  | across
  | down
  deriving DecidableEq

namespace Axis

instance : Fintype Axis := ⟨{across, down}, fun a => by cases a <;> simp⟩

def other : Axis → Axis
  | across => down
  | down => across

def start (a : Axis) (r : Rect) : ℤ :=
  match a with
  | across => r.x
  | down => r.y

def length (a : Axis) (r : Rect) : ℤ :=
  match a with
  | across => r.width
  | down => r.height

def stop (a : Axis) (r : Rect) : ℤ := a.start r + a.length r

/-- `e` begins where `d` ends, and they share a stretch of that edge. -/
def Meets (a : Axis) (d e : Rect) : Prop :=
  a.stop d = a.start e ∧ a.other.start e < a.other.stop d ∧ a.other.start d < a.other.stop e

instance (a : Axis) (d e : Rect) : Decidable (a.Meets d e) :=
  inferInstanceAs (Decidable (_ ∧ _ ∧ _))

variable {a : Axis} {d e : Rect}

lemma proper_iff : d.Proper ↔ ∀ a : Axis, 0 < a.length d := by
  constructor
  · intro h a
    cases a with
    | across => exact h.1
    | down => exact h.2
  · exact fun h => ⟨h across, h down⟩

lemma intersects_eq_false_iff : d.intersects e = false ↔ ∃ a : Axis, a.stop d ≤ a.start e ∨ a.stop e ≤ a.start d := by
  rw [Rect.intersects_eq_false_iff]
  constructor
  · rintro (h | h | h | h)
    · exact ⟨across, .inr h⟩
    · exact ⟨across, .inl h⟩
    · exact ⟨down, .inr h⟩
    · exact ⟨down, .inl h⟩
  · rintro ⟨a, h⟩
    cases a with
    | across => exact h.elim (fun h => .inr (.inl h)) .inl
    | down => exact h.elim (fun h => .inr (.inr (.inr h))) fun h => .inr (.inr (.inl h))

lemma touches_iff (hd : d.Proper) (he : e.Proper) (side : Side) : Touches side d e ↔
    match side with
    | .left => across.Meets e d
    | .right => across.Meets d e
    | .up => down.Meets e d
    | .down => down.Meets d e := by
  have hshare (lo hi lo' hi' : ℤ) (h : lo < hi) (h' : lo' < hi') :
      (∃ n, Over (lo, hi) n ∧ Over (lo', hi') n) ↔ lo' < hi ∧ lo < hi' := by
    simp only [Over]
    constructor
    · rintro ⟨n, hn, hn'⟩
      omega
    · exact fun hlt => ⟨max lo lo', by omega, by omega⟩
  obtain ⟨hdw, hdh⟩ := hd
  obtain ⟨hew, heh⟩ := he
  cases side <;> rw [Touches] <;>
    simp only [Side.along, Side.upright, Side.opposite, Side.edge, Rect.right, Rect.bottom, Meets, other, start, stop,
      length, reduceCtorEq, or_true, true_or, or_self, decide_true, decide_false, Bool.false_eq_true, if_true, if_false] <;>
    rw [hshare _ _ _ _ (by omega) (by omega)] <;> omega

lemma touches_all_iff {r t : Rect} (hd : d.Proper) (he : e.Proper) (hr : r.Proper) (ht : t.Proper) :
    (∀ side, Touches side d e → Touches side r t) ↔
      ∀ a : Axis, (a.Meets d e → a.Meets r t) ∧ (a.Meets e d → a.Meets t r) := by
  simp only [touches_iff hd he, touches_iff hr ht]
  constructor
  · intro h a
    cases a with
    | across => exact ⟨h .right, h .left⟩
    | down => exact ⟨h .down, h .up⟩
  · intro h side
    cases side with
    | left => exact (h across).2
    | right => exact (h across).1
    | up => exact (h down).2
    | down => exact (h down).1

end Axis

lemma foldl_mem {α : Type} {f : α → α → α} (hf : ∀ a b, f a b = a ∨ f a b = b) (as : List α) (a : α) :
    as.foldl f a ∈ a :: as := by
  induction as generalizing a with
  | nil => exact List.mem_singleton_self a
  | cons b as ih =>
    rw [List.foldl_cons]
    rcases List.mem_cons.mp (ih (f a b)) with h | h
    · rw [h]
      rcases hf a b with heq | heq <;> simp [heq]
    · exact List.mem_cons_of_mem _ (List.mem_cons_of_mem _ h)

lemma biggest_mem (d : DisplayConfig) (ds : List DisplayConfig) : biggest d ds ∈ (d :: ds).zipIdx := by
  rw [List.zipIdx_cons]
  refine foldl_mem (fun a b => ?_) _ _
  split_ifs
  · exact .inr rfl
  · exact .inl rfl

namespace ScreenConfig

def biggestDisplay (s : ScreenConfig) : DisplayConfig :=
  match s.displays with
  | [] => .default
  | d :: ds => (biggest d ds).1

/-- What rounding to whole pixels adds to a number of thousandths, halves being rounded away from zero. -/
def rest (n : ℤ) : ℤ := if n % 1000 < 500 ∨ n % 1000 = 500 ∧ n < 0 then -(n % 1000) else 1000 - n % 1000

/-- The same for a length, which is a pixel at least. -/
def restOfLength (n : ℤ) : ℤ := if n < 500 then 1000 - n else rest n

def scaledLength (s : ScreenConfig) (a : Axis) (d : DisplayConfig) : ℤ := a.length d.rect * s.displayScale d

def scaledOffset (s : ScreenConfig) (a : Axis) (d : DisplayConfig) : ℤ :=
  (a.start d.rect - a.start s.biggestDisplay.rect) * s.displayScale s.biggestDisplay

/-- What is added to the offset of a display: what rounds it, or at an edge of the biggest display what makes them
meet. -/
def restOfOffset (s : ScreenConfig) (a : Axis) (d : DisplayConfig) : ℤ :=
  if a.start d.rect = a.stop s.biggestDisplay.rect then restOfLength (s.scaledLength a s.biggestDisplay)
  else if a.stop d.rect = a.start s.biggestDisplay.rect then
    a.length d.rect * s.displayScale s.biggestDisplay - s.scaledLength a d - restOfLength (s.scaledLength a d)
  else rest (s.scaledOffset a d)

/-- The displays lie in the shared space as in the computer's own pixels: apart, and side by side where they were. -/
structure KeepsArrangement (s : ScreenConfig) : Prop where
  apart : s.displayRects.Pairwise fun r t => r.intersects t = false
  touching : ∀ (i j : ℕ) (d e : DisplayConfig) (r t : Rect), s.displays[i]? = some d → s.displays[j]? = some e → s.displayRects[i]? = some r →
    s.displayRects[j]? = some t → ∀ side, Touches side d.rect e.rect → Touches side r t

/-- The thousandths between the end of `d` and the start of `e`, with what is added to their offsets and to the length. -/
def slack (s : ScreenConfig) (a : Axis) (d e : DisplayConfig) : ℤ :=
  s.scaledOffset a e - s.scaledOffset a d - s.scaledLength a d +
    (s.restOfOffset a e - s.restOfOffset a d - restOfLength (s.scaledLength a d))

/-- Where two displays other than the biggest one meet, what is added makes up for what the scales take away; a shared
stretch of an edge does not vanish or slip off; and displays that share none have no less than nothing between them
along one of the axes. -/
structure RoundsTogether (s : ScreenConfig) : Prop where
  meeting : ∀ d ∈ s.displays, ∀ e ∈ s.displays, ∀ a : Axis, a.Meets d.rect e.rect →
    (d ≠ s.biggestDisplay → e ≠ s.biggestDisplay → s.slack a d e = 0) ∧ s.slack a.other d e < 0 ∧ s.slack a.other e d < 0
  others : s.displays.Pairwise fun d e => (∀ a : Axis, ¬a.Meets d.rect e.rect ∧ ¬a.Meets e.rect d.rect) →
    ∃ a, 0 ≤ s.slack a d e ∨ 0 ≤ s.slack a e d

instance (s : ScreenConfig) : Decidable s.RoundsTogether :=
  decidable_of_iff
    ((∀ d ∈ s.displays, ∀ e ∈ s.displays, ∀ a : Axis, a.Meets d.rect e.rect →
        (d ≠ s.biggestDisplay → e ≠ s.biggestDisplay → s.slack a d e = 0) ∧ s.slack a.other d e < 0 ∧
          s.slack a.other e d < 0) ∧
      s.displays.Pairwise fun d e => (∀ a : Axis, ¬a.Meets d.rect e.rect ∧ ¬a.Meets e.rect d.rect) →
        ∃ a, 0 ≤ s.slack a d e ∨ 0 ≤ s.slack a e d)
    ⟨fun h => ⟨h.1, h.2⟩, fun h => ⟨h.meeting, h.others⟩⟩

variable {s : ScreenConfig} {a : Axis} {d e : DisplayConfig}

lemma biggestDisplay_eq {ds : List DisplayConfig} (h : s.displays = d :: ds) :
    s.biggestDisplay = (biggest d ds).1 ∧ s.displays[(biggest d ds).2]? = some s.biggestDisplay := by
  have heq : s.biggestDisplay = (biggest d ds).1 := by rw [biggestDisplay, h]
  rw [heq, h]
  exact ⟨rfl, List.mem_zipIdx_iff_getElem?.mp (biggest_mem d ds)⟩

lemma lround_rest (n : ℤ) : 1000 * lround n 1000 = n + rest n := by
  rw [lround, rest]
  split_ifs <;> omega

lemma lround_restOfLength (n : ℤ) : 1000 * max 1 (lround n 1000) = n + restOfLength n := by
  have hrest := lround_rest n
  rw [restOfLength]
  rw [rest] at hrest ⊢
  split_ifs at hrest ⊢ <;> omega

lemma start_besideMain : 1000 * a.start (s.besideMain s.biggestDisplay d) =
    1000 * a.start (s.mainRect s.biggestDisplay) + (s.scaledOffset a d + s.restOfOffset a d) := by
  have hbiggest := lround_restOfLength (s.scaledLength a s.biggestDisplay)
  have hlength := lround_restOfLength (s.scaledLength a d)
  have hoffset := lround_rest (s.scaledOffset a d)
  rw [restOfOffset]
  cases a <;> simp only [Axis.start, Axis.stop, Axis.length, besideMain, mainRect, scaledOffset, scaledLength, shared,
    DisplayConfig.rect, Rect.right, Rect.bottom] at * <;> split_ifs <;> grind

lemma length_besideMain : 1000 * a.length (s.besideMain s.biggestDisplay d) =
    s.scaledLength a d + restOfLength (s.scaledLength a d) := by
  have hlength := lround_restOfLength (s.scaledLength a d)
  cases a <;> exact hlength

lemma proper_besideMain (dx dy : ℤ) : ((s.besideMain s.biggestDisplay d).translated dx dy).Proper :=
  ⟨lt_max_of_lt_left one_pos, lt_max_of_lt_left one_pos⟩

lemma shared_zero (scale : ℤ) : shared 0 scale = 0 := by
  rw [shared, zero_mul]
  rfl

lemma mainRect_eq (h : s.biggestDisplay.rect.Proper) :
    s.mainRect s.biggestDisplay = s.besideMain s.biggestDisplay s.biggestDisplay := by
  obtain ⟨hw, hh⟩ := h
  simp only [DisplayConfig.rect] at hw hh
  rw [besideMain]
  simp only [sub_self, shared_zero, add_zero, left_eq_add, add_eq_left, hw.ne', hh.ne', if_false]
  rfl

lemma unplacedRects_eq (hsizes : ∀ d ∈ s.displays, d.rect.Proper) :
    s.unplacedRects = s.displays.map (s.besideMain s.biggestDisplay) := by
  cases heq : s.displays with
  | nil =>
    rw [unplacedRects, heq]
    rfl
  | cons d ds =>
    obtain ⟨hbiggest, hat⟩ := biggestDisplay_eq heq
    have hmain := mainRect_eq (hsizes _ (List.mem_of_getElem? hat))
    rw [heq] at hat
    rw [unplacedRects, heq]
    dsimp only
    rw [← hbiggest]
    conv_rhs => rw [← List.zipIdx_map_fst 0 (d :: ds), List.map_map]
    refine List.map_congr_left fun e he => ?_
    dsimp only [Function.comp_apply]
    split_ifs with hindex
    · have he' := List.mem_zipIdx_iff_getElem?.mp he
      rw [hindex, hat] at he'
      rw [hmain, Option.some.inj he']
    · rfl

lemma displayRects_eq (hsizes : ∀ d ∈ s.displays, d.rect.Proper) : ∃ dx dy,
    s.displayRects = s.displays.map fun d => (s.besideMain s.biggestDisplay d).translated dx dy := by
  rw [displayRects]
  split
  · rename_i hbox
    have hnil := Rect.box_eq_none.mp hbox
    rw [unplacedRects_eq hsizes] at hnil
    exact ⟨0, 0, by rw [List.map_eq_nil_iff.mp hnil]; rfl⟩
  · rename_i box hbox
    refine ⟨s.x - box.x, s.y - box.y, ?_⟩
    rw [unplacedRects_eq hsizes, List.map_map]
    rfl

section Placed

variable {dx dy : ℤ}

lemma slack_eq (dx dy : ℤ) : s.slack a d e = 1000 * (a.start ((s.besideMain s.biggestDisplay e).translated dx dy) -
    a.stop ((s.besideMain s.biggestDisplay d).translated dx dy)) := by
  have hstart (r : Rect) : a.start (r.translated dx dy) = a.start r + a.start ⟨dx, dy, 0, 0⟩ := by
    cases a <;> rfl
  have hlength (r : Rect) : a.length (r.translated dx dy) = a.length r := by
    cases a <;> rfl
  have hd := @start_besideMain s a d
  have he := @start_besideMain s a e
  have hlengthd := @length_besideMain s a d
  rw [Axis.stop, hstart, hstart, hlength, slack]
  linarith

lemma apart_iff : ((s.besideMain s.biggestDisplay d).translated dx dy).intersects
      ((s.besideMain s.biggestDisplay e).translated dx dy) = false ↔ ∃ a, 0 ≤ s.slack a d e ∨ 0 ≤ s.slack a e d := by
  rw [Axis.intersects_eq_false_iff]
  refine exists_congr fun a => ?_
  rw [slack_eq dx dy, slack_eq dx dy]
  omega

lemma meets_iff : a.Meets ((s.besideMain s.biggestDisplay d).translated dx dy)
      ((s.besideMain s.biggestDisplay e).translated dx dy) ↔
    s.slack a d e = 0 ∧ s.slack a.other d e < 0 ∧ s.slack a.other e d < 0 := by
  rw [Axis.Meets, slack_eq dx dy, slack_eq dx dy, slack_eq dx dy]
  omega

end Placed

lemma slack_of_meets_biggest (hd : d.rect.Proper) (he : e.rect.Proper) (h : a.stop d.rect = a.start e.rect)
    (hbiggest : d = s.biggestDisplay ∨ e = s.biggestDisplay) : s.slack a d e = 0 := by
  have hproper : s.biggestDisplay.rect.Proper := hbiggest.elim (· ▸ hd) (· ▸ he)
  have hlength := Axis.proper_iff.mp hproper a
  have hzero : s.scaledOffset a s.biggestDisplay = 0 := by
    rw [scaledOffset, sub_self, zero_mul]
  have hrest : s.restOfOffset a s.biggestDisplay = 0 := by
    rw [restOfOffset, Axis.stop, if_neg (by omega), if_neg (by omega), hzero]
    rfl
  rcases hbiggest with rfl | rfl
  · have hoffset : s.scaledOffset a e = s.scaledLength a s.biggestDisplay := by
      rw [scaledOffset, scaledLength, ← h, Axis.stop, add_sub_cancel_left]
    rw [slack, hzero, hrest, restOfOffset, if_pos h.symm, hoffset]
    ring
  · have hbefore := Axis.proper_iff.mp hd a
    have hoffset : s.scaledOffset a d = -(a.length d.rect * s.displayScale s.biggestDisplay) := by
      rw [scaledOffset, ← h, Axis.stop]
      ring
    rw [slack, hzero, hrest, restOfOffset, if_neg (by rw [Axis.stop] at *; omega), if_pos h, hoffset]
    ring

lemma RoundsTogether.meets (h : s.RoundsTogether) (hsizes : ∀ d ∈ s.displays, d.rect.Proper) (hd : d ∈ s.displays)
    (he : e ∈ s.displays) (hmeets : a.Meets d.rect e.rect) :
    s.slack a d e = 0 ∧ s.slack a.other d e < 0 ∧ s.slack a.other e d < 0 := by
  obtain ⟨hslack, hshare⟩ := h.meeting d hd e he a hmeets
  refine ⟨?_, hshare⟩
  by_cases hbiggest : d = s.biggestDisplay ∨ e = s.biggestDisplay
  · exact slack_of_meets_biggest (hsizes d hd) (hsizes e he) hmeets.1 hbiggest
  · rw [not_or] at hbiggest
    exact hslack hbiggest.1 hbiggest.2

def threeInRow : ScreenConfig :=
  { ScreenConfig.new "desk".toList with
    displays := [⟨0, 0, 1366, 768, 0, 0⟩, ⟨1366, 0, 1366, 768, 0, 0⟩, ⟨2732, 0, 1920, 1080, 0, 0⟩] }

end ScreenConfig

end InputLeap.Gui
