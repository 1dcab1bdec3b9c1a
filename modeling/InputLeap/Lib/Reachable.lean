import Mathlib.Data.List.Basic

/-! The states that a system comes to, step after step, if every step meets a condition. -/

namespace InputLeap.Lib

variable {σ ε : Type}

inductive Reachable (init : σ → Prop) (next : σ → ε → Option σ) (ok : σ → ε → Prop) : σ → Prop
  | start {s : σ} (h : init s) : Reachable init next ok s
  | step {s t : σ} {e : ε} (hs : Reachable init next ok s) (hok : ok s e) (h : next s e = some t) :
      Reachable init next ok t

def runFrom (next : σ → ε → Option σ) : List ε → σ → Option σ
  | [], s => some s
  | e :: es, s => (next s e).bind (runFrom next es)

/-- Every step of a run meets a condition in the state that it finds. -/
def Along (next : σ → ε → Option σ) (P : σ → ε → Prop) : List ε → σ → Prop
  | [], _ => True
  | e :: es, s => P s e ∧ ∀ t, next s e = some t → Along next P es t

theorem Along.mono {next : σ → ε → Option σ} {P Q : σ → ε → Prop} (hPQ : ∀ s e, P s e → Q s e) {es : List ε} {s : σ}
    (h : Along next P es s) : Along next Q es s := by
  induction es generalizing s with
  | nil => trivial
  | cons e es ih => exact ⟨hPQ s e h.1, fun t ht => ih (h.2 t ht)⟩

/-- Where a property is kept by the steps that meet one condition, another that says the same there is met as long. -/
theorem Along.congr {next : σ → ε → Option σ} {I : σ → Prop} {P Q : σ → ε → Prop}
    (hiff : ∀ s e, I s → (P s e ↔ Q s e)) (hinv : ∀ s e t, I s → P s e → next s e = some t → I t) {es : List ε} {s : σ}
    (hs : I s) : Along next P es s ↔ Along next Q es s := by
  induction es generalizing s with
  | nil => exact Iff.rfl
  | cons e es ih =>
    rw [Along, Along, ← hiff s e hs]
    apply and_congr_right
    intro hP
    apply forall_congr'
    intro t
    apply forall_congr'
    intro ht
    exact ih (hinv s e t hs hP ht)

instance Along.decidable {next : σ → ε → Option σ} {P : σ → ε → Prop} [∀ s e, Decidable (P s e)] :
    ∀ (es : List ε) (s : σ), Decidable (Along next P es s)
  | [], _ => .isTrue trivial
  | e :: es, s =>
    match h : next s e with
    | none => decidable_of_iff (P s e) ⟨fun hP => ⟨hP, fun _ ht => nomatch h.symm.trans ht⟩, And.left⟩
    | some t =>
      have : Decidable (Along next P es t) := Along.decidable es t
      decidable_of_iff (P s e ∧ Along next P es t)
        ⟨fun hP => ⟨hP.1, fun _ hu => Option.some.inj (h.symm.trans hu) ▸ hP.2⟩, fun hP => ⟨hP.1, hP.2 t h⟩⟩

theorem isSome_runFrom {next : σ → ε → Option σ} (es : List ε) (s : σ) :
    (runFrom next es s).isSome = true ↔ Along next (fun s e => (next s e).isSome = true) es s := by
  induction es generalizing s with
  | nil => exact iff_of_true rfl trivial
  | cons e es ih =>
    rw [runFrom, Along]
    rcases next s e with _ | t
    · simp
    · simp [ih]

theorem runFrom_append {next : σ → ε → Option σ} (es fs : List ε) (s : σ) :
    runFrom next (es ++ fs) s = (runFrom next es s).bind (runFrom next fs) := by
  induction es generalizing s with
  | nil => rfl
  | cons e es ih =>
    rw [List.cons_append, runFrom, runFrom]
    cases next s e with
    | none => rfl
    | some t => exact ih t

theorem runFrom_invariant {next : σ → ε → Option σ} {I : σ → Prop} (hstep : ∀ s e t, I s → next s e = some t → I t)
    {es : List ε} {s t : σ} (hs : I s) (h : runFrom next es s = some t) : I t := by
  induction es generalizing s with
  | nil => exact Option.some.inj h ▸ hs
  | cons e es ih =>
    obtain ⟨u, hu, hrest⟩ := Option.bind_eq_some_iff.mp h
    exact ih (hstep _ _ _ hs hu) hrest

/-- A property that each step of a run keeps exactly if it meets a condition. -/
theorem iff_along {next : σ → ε → Option σ} {I P : σ → Prop} {ok : σ → ε → Prop}
    (hinv : ∀ s e t, I s → next s e = some t → I t)
    (hstep : ∀ s e t, I s → next s e = some t → (P t ↔ P s ∧ ok s e)) {es : List ε} {s t : σ} (hs : I s)
    (h : runFrom next es s = some t) : P t ↔ P s ∧ Along next ok es s := by
  induction es generalizing s with
  | nil => exact Option.some.inj h ▸ (and_iff_left trivial).symm
  | cons e es ih =>
    obtain ⟨u, hu, hrest⟩ := Option.bind_eq_some_iff.mp h
    rw [ih (hinv _ _ _ hs hu) hrest, hstep _ _ _ hs hu, Along, and_assoc]
    apply and_congr_right'
    apply and_congr_right'
    constructor
    · intro halong t ht
      exact Option.some.inj (hu.symm.trans ht) ▸ halong
    · intro hall
      exact hall u hu

def checked (next : σ → ε → Option σ) (ok : σ → ε → Prop) [∀ s e, Decidable (ok s e)] (s : σ) (e : ε) : Option σ :=
  if ok s e then next s e else none

namespace Reachable

variable {init : σ → Prop} {next : σ → ε → Option σ} {ok : σ → ε → Prop}

theorem invariant {I : σ → Prop} (hstart : ∀ s, init s → I s)
    (hstep : ∀ s e t, I s → ok s e → next s e = some t → I t) {s : σ} (h : Reachable init next ok s) :
    I s := by
  induction h with
  | start h => exact hstart _ h
  | step _ hok h ih => exact hstep _ _ _ ih hok h

theorem mono {init' : σ → Prop} {ok' : σ → ε → Prop} (hinit : ∀ s, init s → init' s)
    (hok : ∀ s e, ok s e → ok' s e) {s : σ} (h : Reachable init next ok s) :
    Reachable init' next ok' s := by
  induction h with
  | start h => exact .start (hinit _ h)
  | step _ hs h ih => exact .step ih (hok _ _ hs) h

theorem run [∀ s e, Decidable (ok s e)] {es : List ε} {s t : σ} (hs : Reachable init next ok s)
    (h : runFrom (checked next ok) es s = some t) : Reachable init next ok t := by
  induction es generalizing s with
  | nil => exact Option.some.inj h ▸ hs
  | cons e es ih =>
    obtain ⟨u, hu, hrest⟩ := Option.bind_eq_some_iff.mp h
    rw [checked] at hu
    split_ifs at hu with hok
    exact ih (.step hs hok hu) hrest

theorem exists_of_run [∀ s e, Decidable (ok s e)] {P : σ → Prop} [DecidablePred P] {s : σ} (hs : init s)
    (es : List ε) (h : (runFrom (checked next ok) es s).any (fun s => decide (P s)) = true) :
    ∃ t, Reachable init next ok t ∧ P t := by
  obtain ⟨t, hrun, hP⟩ := Option.any_eq_true _ _ |>.mp h
  exact ⟨t, .run (.start hs) hrun, of_decide_eq_true hP⟩

end Reachable

end InputLeap.Lib
