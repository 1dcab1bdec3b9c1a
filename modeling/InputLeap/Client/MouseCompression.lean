import InputLeap.Client.ServerProxy
import Mathlib.Algebra.BigOperators.Group.List.Basic
import Mathlib.Algebra.Group.Prod
import Mathlib.Data.List.DropRight
import Mathlib.Tactic.Abel

/-! Where compressed motion leaves the cursor. Absolute and relative motion are held back
independently and flushed in a fixed order, so one kind can overtake the other. -/

namespace InputLeap.Client

open ServerProxy

abbrev Point := BitVec 32 × BitVec 32

def ClientCall.move : ClientCall → Point → Point
  | .mouseMove x y, _ => (x, y)
  | .mouseRelativeMove dx dy, p => p + (dx, dy)
  | .enter x y _ _, _ => (x, y)
  | _, p => p

def position (calls : List ClientCall) (start : Point) : Point :=
  calls.foldl (fun p c => c.move p) start

namespace Message

def isMove : Message → Bool
  | mouseMove _ _ => true
  | _ => false

def isRelMove : Message → Bool
  | mouseRelMove _ _ => true
  | _ => false

def apply : Message → Point → Point
  | mouseMove x y, _ => (x.signExtend 32, y.signExtend 32)
  | mouseRelMove dx dy, p => p + (dx.signExtend 32, dy.signExtend 32)
  | enter x y _ _, _ => (x.signExtend 32, y.signExtend 32)
  | _, p => p

def displacement : Message → Point
  | mouseRelMove dx dy => (dx.signExtend 32, dy.signExtend 32)
  | _ => 0

end Message

abbrev Batch := List (Message × Bool)

def sequential (b : Batch) (start : Point) : Point :=
  b.foldl (fun p m => m.1.apply p) start

def travel (b : Batch) : Point := (b.map (fun m => m.1.displacement)).sum

def heldMove (m : Message × Bool) : Bool := m.1.isMove && m.2

def heldRelMove (m : Message × Bool) : Bool := m.1.isRelMove && m.2

def sinceLastMove (b : Batch) : Batch := b.rtakeWhile (fun m => !m.1.isMove)

def untilLastMove (b : Batch) : Batch := b.rdropWhile (fun m => !m.1.isMove)

/-- The relative motion that ends up on the wrong side of an absolute move: with an absolute move
held back, what is forwarded at once after the last one; otherwise, what is held back before it. -/
def overtaken (b : Batch) : Batch :=
  if b.any heldMove then (sinceLastMove b).takeWhile (fun m => !m.2)
  else (untilLastMove b).dropWhile (fun m => !heldRelMove m)

section Lists

lemma travel_append (b c : Batch) : travel (b ++ c) = travel b + travel c := by
  simp [travel]

lemma travel_move {m : Message × Bool} (h : m.1.isMove = true) : travel [m] = 0 := by
  obtain ⟨m, r⟩ := m
  cases m <;> simp_all [travel, Message.isMove, Message.displacement]

lemma travel_take_drop (b : Batch) (f : Message × Bool → Bool) :
    travel (b.takeWhile f) + travel (b.dropWhile f) = travel b := by
  rw [← travel_append, List.takeWhile_append_dropWhile]

lemma travel_dropWhile_concat (b : Batch) (m : Message × Bool) (f : Message × Bool → Bool) :
    travel ((b ++ [m]).dropWhile (fun x => !f x)) =
      travel (b.dropWhile (fun x => !f x)) + if b.any f || f m then travel [m] else 0 := by
  induction b with
  | nil => cases hm : f m <;> simp [hm, travel]
  | cons x b ih =>
    cases hx : f x with
    | false => simpa only [List.cons_append, List.dropWhile_cons, hx, Bool.not_false, if_true,
        List.any_cons, Bool.false_or] using ih
    | true => simpa [hx] using travel_append (x :: b) [m]

lemma sinceLastMove_move {b : Batch} {m : Message × Bool} (h : m.1.isMove = true) :
    sinceLastMove (b ++ [m]) = [] := by
  simp [sinceLastMove, h]

lemma sinceLastMove_relMove {b : Batch} {m : Message × Bool} (h : m.1.isMove = false) :
    sinceLastMove (b ++ [m]) = sinceLastMove b ++ [m] := by
  simp [sinceLastMove, h]

lemma untilLastMove_move {b : Batch} {m : Message × Bool} (h : m.1.isMove = true) :
    untilLastMove (b ++ [m]) = b ++ [m] := by
  simp [untilLastMove, h]

lemma untilLastMove_relMove {b : Batch} {m : Message × Bool} (h : m.1.isMove = false) :
    untilLastMove (b ++ [m]) = untilLastMove b := by
  simp [untilLastMove, h]

end Lists

lemma handleMessages_concat (p : ServerProxy) (b : Batch) (m : Message × Bool) :
    p.handleMessages (b ++ [m]) =
      (((p.handleMessages b).1.parseMessage m.2 m.1).1,
        (p.handleMessages b).2 ++ ((p.handleMessages b).1.parseMessage m.2 m.1).2) := by
  induction b generalizing p with
  | nil => simp [handleMessages]
  | cons x b ih => simp [handleMessages, ih]

lemma position_append (c d : List ClientCall) (start : Point) :
    position (c ++ d) start = position d (position c start) := List.foldl_append

lemma sequential_concat (b : Batch) (m : Message × Bool) (start : Point) :
    sequential (b ++ [m]) start = m.1.apply (sequential b start) := by
  simp [sequential]

/-- What the proxy holds after the messages `b`, and where the cursor stands. -/
structure Held (b : Batch) (start : Point) (p : ServerProxy) (calls : List ClientCall) : Prop where
  heeds : p.ignoreMouse = false
  absolute : p.compressMouse = b.any heldMove
  behind : p.compressMouse = true →
    p.compressMouseRelative = (sinceLastMove b).any (fun m => m.2) ∧
      (p.dxMouse, p.dyMouse) = travel ((sinceLastMove b).dropWhile (fun m => !m.2)) ∧
      (p.xMouse, p.yMouse) + travel (sinceLastMove b) = sequential b start
  ahead : p.compressMouse = false →
    p.compressMouseRelative = b.any heldRelMove ∧
      (p.dxMouse, p.dyMouse) = travel (b.dropWhile (fun m => !heldRelMove m)) ∧
      position calls start + (p.dxMouse, p.dyMouse) =
        sequential b start + travel ((untilLastMove b).dropWhile (fun m => !heldRelMove m))

lemma Settled.held {p : ServerProxy} (h : p.Settled) (hi : p.ignoreMouse = false) (start : Point) :
    Held [] start p [] := by
  refine ⟨hi, h.absolute, ?_, ?_⟩
  · intro ha
    simp [h.absolute] at ha
  · intro _
    simp [h.relative, h.dx, h.dy, travel, position, sequential, untilLastMove]

lemma Held.mouseMove {b : Batch} {start : Point} {p : ServerProxy} {calls : List ClientCall}
    (h : Held b start p calls) (x y : BitVec 16) (r : Bool) :
    Held (b ++ [(.mouseMove x y, r)]) start (p.mouseMove x y r).1 (calls ++ (p.mouseMove x y r).2) := by
  have hm : (Message.mouseMove x y, r).1.isMove = true := rfl
  have hany : (b ++ [(Message.mouseMove x y, r)]).any heldMove = (p.compressMouse || r) := by
    rw [List.any_append, ← h.absolute]
    simp [heldMove, Message.isMove]
  cases hc : p.compressMouse || r with
  | true =>
    rw [mouseMove_held h.heeds x y hc]
    refine ⟨h.heeds, (hany.trans hc).symm, fun _ => ?_, fun ha => by simp at ha⟩
    rw [sinceLastMove_move hm, sequential_concat]
    simp [travel, Message.apply]
  | false =>
    rw [mouseMove_forwarded h.heeds x y hc]
    obtain ⟨hp, -⟩ := Bool.or_eq_false_iff.mp hc
    refine ⟨h.heeds, hp.trans (hany.trans hc).symm, fun ha => by simp [hp] at ha, fun _ => ?_⟩
    obtain ⟨ha, hd, -⟩ := h.ahead hp
    have hdrop := travel_dropWhile_concat b (.mouseMove x y, r) heldRelMove
    rw [travel_move hm, ite_self, add_zero] at hdrop
    refine ⟨?_, hd.trans hdrop.symm, ?_⟩
    · rw [List.any_append, ← ha]
      simp [heldRelMove, Message.isRelMove]
    · rw [untilLastMove_move hm, hdrop, sequential_concat, position_append, hd]
      rfl

section RelMove

variable {b : Batch} {start : Point} {p : ServerProxy} {calls : List ClientCall} (h : Held b start p calls)
  (dx dy : BitVec 16) (r : Bool)

lemma travel_relMove : travel [(.mouseRelMove dx dy, r)] = (dx.signExtend 32, dy.signExtend 32) := by
  simp [travel, Message.displacement]

lemma sequential_relMove (b : Batch) (start : Point) :
    sequential (b ++ [(.mouseRelMove dx dy, r)]) start = sequential b start + travel [(.mouseRelMove dx dy, r)] := by
  rw [sequential_concat, travel_relMove]
  rfl

lemma travel_sinceLastMove_relMove (b : Batch) :
    (sinceLastMove (b ++ [(.mouseRelMove dx dy, r)])).any (fun m => m.2) = ((sinceLastMove b).any (fun m => m.2) || r) ∧
      travel ((sinceLastMove (b ++ [(.mouseRelMove dx dy, r)])).dropWhile (fun m => !m.2)) =
        travel ((sinceLastMove b).dropWhile (fun m => !m.2)) +
          if (sinceLastMove b).any (fun m => m.2) || r then travel [(.mouseRelMove dx dy, r)] else 0 := by
  have hmove : (Message.mouseRelMove dx dy, r).1.isMove = false := rfl
  rw [sinceLastMove_relMove hmove]
  exact ⟨by simp, travel_dropWhile_concat (sinceLastMove b) (.mouseRelMove dx dy, r) fun m => m.2⟩

lemma travel_heldRelMove_relMove (b : Batch) :
    (b ++ [(Message.mouseRelMove dx dy, r)]).any heldRelMove = (b.any heldRelMove || r) ∧
      travel ((b ++ [(Message.mouseRelMove dx dy, r)]).dropWhile (fun m => !heldRelMove m)) =
        travel (b.dropWhile (fun m => !heldRelMove m)) +
          if b.any heldRelMove || r then travel [(.mouseRelMove dx dy, r)] else 0 := by
  have hheld : heldRelMove (.mouseRelMove dx dy, r) = r := by simp [heldRelMove, Message.isRelMove]
  have hdrop := travel_dropWhile_concat b (.mouseRelMove dx dy, r) heldRelMove
  rw [hheld] at hdrop
  exact ⟨by simp [hheld], hdrop⟩

lemma any_heldMove_relMove (b : Batch) : (b ++ [(Message.mouseRelMove dx dy, r)]).any heldMove = b.any heldMove := by
  simp [heldMove, Message.isMove]

include h

lemma Held.mouseRelMove_held (hc : (p.compressMouseRelative || r) = true) :
    Held (b ++ [(.mouseRelMove dx dy, r)]) start (p.mouseRelativeMove dx dy r).1
      (calls ++ (p.mouseRelativeMove dx dy r).2) := by
  obtain ⟨hsinceAny, hsince⟩ := travel_sinceLastMove_relMove dx dy r b
  obtain ⟨hrelAny, hdrop⟩ := travel_heldRelMove_relMove dx dy r b
  have hmove : (Message.mouseRelMove dx dy, r).1.isMove = false := rfl
  have hadd : (p.dxMouse + dx.signExtend 32, p.dyMouse + dy.signExtend 32) =
      (p.dxMouse, p.dyMouse) + travel [(.mouseRelMove dx dy, r)] := by
    rw [travel_relMove]
    rfl
  rw [mouseRelativeMove_held h.heeds dx dy hc]
  refine ⟨h.heeds, h.absolute.trans (any_heldMove_relMove dx dy r b).symm, fun ha => ?_, fun ha => ?_⟩
  · obtain ⟨hb, hd, ht⟩ := h.behind ha
    rw [← hb, hc] at hsinceAny hsince
    rw [if_pos rfl] at hsince
    refine ⟨hsinceAny.symm, by rw [hadd, hd, hsince], ?_⟩
    rw [sinceLastMove_relMove hmove, travel_append, sequential_relMove, ← ht]
    abel
  · obtain ⟨hb, hd, ht⟩ := h.ahead ha
    rw [← hb, hc] at hrelAny hdrop
    rw [if_pos rfl] at hdrop
    refine ⟨hrelAny.symm, by rw [hadd, hd, hdrop], ?_⟩
    rw [untilLastMove_relMove hmove, sequential_relMove, List.append_nil, hadd, ← add_assoc, ht]
    abel

lemma Held.mouseRelMove_forwarded (hc : (p.compressMouseRelative || r) = false) :
    Held (b ++ [(.mouseRelMove dx dy, r)]) start (p.mouseRelativeMove dx dy r).1
      (calls ++ (p.mouseRelativeMove dx dy r).2) := by
  obtain ⟨hsinceAny, hsince⟩ := travel_sinceLastMove_relMove dx dy r b
  obtain ⟨hrelAny, hdrop⟩ := travel_heldRelMove_relMove dx dy r b
  have hmove : (Message.mouseRelMove dx dy, r).1.isMove = false := rfl
  have hone : position [.mouseRelativeMove (dx.signExtend 32) (dy.signExtend 32)] (position calls start) =
      position calls start + travel [(.mouseRelMove dx dy, r)] := by
    rw [travel_relMove]
    rfl
  obtain ⟨hp, -⟩ := Bool.or_eq_false_iff.mp hc
  rw [mouseRelativeMove_forwarded h.heeds dx dy hc]
  refine ⟨h.heeds, h.absolute.trans (any_heldMove_relMove dx dy r b).symm, fun ha => ?_, fun ha => ?_⟩
  · obtain ⟨hb, hd, ht⟩ := h.behind ha
    rw [← hb, hc] at hsinceAny hsince
    rw [if_neg Bool.false_ne_true, add_zero] at hsince
    refine ⟨hp.trans hsinceAny.symm, by rw [hd, hsince], ?_⟩
    rw [sinceLastMove_relMove hmove, travel_append, sequential_relMove, ← ht]
    abel
  · obtain ⟨hb, hd, ht⟩ := h.ahead ha
    rw [← hb, hc] at hrelAny hdrop
    rw [if_neg Bool.false_ne_true, add_zero] at hdrop
    refine ⟨hp.trans hrelAny.symm, by rw [hd, hdrop], ?_⟩
    rw [untilLastMove_relMove hmove, sequential_relMove, position_append, hone, add_right_comm, ht]
    abel

lemma Held.mouseRelMove : Held (b ++ [(.mouseRelMove dx dy, r)]) start (p.mouseRelativeMove dx dy r).1
    (calls ++ (p.mouseRelativeMove dx dy r).2) := by
  cases hc : p.compressMouseRelative || r with
  | true => exact h.mouseRelMove_held dx dy r hc
  | false => exact h.mouseRelMove_forwarded dx dy r hc

end RelMove

def IsMotion (m : Message) : Prop := m.isMove = true ∨ m.isRelMove = true

lemma handleMessages_held {p : ServerProxy} (h : p.Settled) (hi : p.ignoreMouse = false)
    (b : Batch) (hb : ∀ m ∈ b, IsMotion m.1) (start : Point) :
    Held b start (p.handleMessages b).1 (p.handleMessages b).2 := by
  induction b using List.reverseRecOn with
  | nil => exact Settled.held h hi start
  | append_singleton b m ih =>
    have hh := ih (fun x hx => hb x (List.mem_append_left _ hx))
    have hm := hb m (by simp)
    obtain ⟨m, r⟩ := m
    rw [handleMessages_concat]
    cases m with
    | mouseMove x y => exact hh.mouseMove x y r
    | mouseRelMove dx dy => exact hh.mouseRelMove dx dy r
    | _ => rcases hm with hm | hm <;> cases hm

lemma flush_position (p : ServerProxy) (q : Point) :
    position p.flushCompressedMouse.2 q =
      (if p.compressMouse then (p.xMouse, p.yMouse) else q) +
        if p.compressMouseRelative then (p.dxMouse, p.dyMouse) else 0 := by
  cases ha : p.compressMouse <;> cases hr : p.compressMouseRelative <;>
    simp [flushCompressedMouse, position, ClientCall.move, ha, hr]

lemma flush_pending {p : ServerProxy} (hp : p.Pending) (calls : List ClientCall) (start : Point) :
    position (calls ++ p.flushCompressedMouse.2) start =
      (if p.compressMouse then (p.xMouse, p.yMouse) else position calls start) +
        (p.dxMouse, p.dyMouse) := by
  rw [position_append, flush_position]
  cases hr : p.compressMouseRelative with
  | true => rfl
  | false =>
    obtain ⟨hx, hy⟩ := hp hr
    simp [hx, hy]

/-- A run over motion messages ends where the messages one by one would, exactly when the motion
that is overtaken adds up to nothing. -/
theorem handleData_position_iff {p : ServerProxy} (h : p.Reachable) (hi : p.ignoreMouse = false)
    (b : Batch) (hb : ∀ m ∈ b, IsMotion m.1) (start : Point) :
    position (p.handleData b).2 start = sequential b start ↔ travel (overtaken b) = 0 := by
  have hh := handleMessages_held h.settled hi b hb start
  have hf := flush_pending (handleMessages_pending h.settled.pending b) (p.handleMessages b).2 start
  change position ((p.handleMessages b).2 ++ (p.handleMessages b).1.flushCompressedMouse.2) start = _ ↔ _
  rw [hf]
  cases ha : (p.handleMessages b).1.compressMouse with
  | true =>
    obtain ⟨-, hd, ht⟩ := hh.behind ha
    have hsplit := travel_take_drop (sinceLastMove b) (fun m => !m.2)
    rw [overtaken, if_pos (hh.absolute.symm.trans ha), hd, ← ht, ← hsplit]
    simp
  | false =>
    obtain ⟨-, hd, ht⟩ := hh.ahead ha
    have hany : b.any heldMove = false := hh.absolute.symm.trans ha
    simp only [overtaken, hany, Bool.false_eq_true, if_false, ht, add_eq_left]

theorem handleData_position_kept :
    position (new.handleData
      [(.mouseMove 10 10, true), (.mouseRelMove 5 0, true), (.mouseMove 20 20, false)]).2 (0, 0) =
      sequential [(.mouseMove 10 10, true), (.mouseRelMove 5 0, true), (.mouseMove 20 20, false)]
        (0, 0) :=
  (handleData_position_iff .new rfl _ (by simp [IsMotion, Message.isMove, Message.isRelMove])
    (0, 0)).mpr (by decide)

/-- An absolute move is held back, the relative move behind it is not: it is lost. -/
theorem handleData_position_lost :
    ¬ ∀ b : Batch, (∀ m ∈ b, IsMotion m.1) →
      position (new.handleData b).2 (0, 0) = sequential b (0, 0) := by
  intro h
  have hh := h [(.mouseMove 10 10, true), (.mouseRelMove 5 0, false)]
    (by simp [IsMotion, Message.isMove, Message.isRelMove])
  revert hh
  decide

end InputLeap.Client
