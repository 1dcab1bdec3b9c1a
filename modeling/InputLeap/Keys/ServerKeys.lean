import InputLeap.Keys.KeyState
import InputLeap.Lib.Reachable

/-! The table of the keys that the server holds down. A button is masked where the table is read, but not
where `fakeKeyUp` clears an entry. -/

namespace InputLeap.Keys.KeyState

open InputLeap.Lib

/-- `fakeKeyUp` clears the entry that `fakeKeyDown` fills and no other, and the key can be pressed anew. -/
def Releases (s : KeyState) (b : KeyButton) : Prop :=
  ∃ result t faked, s.fakeKeyUp b = some (result, t, faked) ∧
    t.serverKeys (slot b) = 0 ∧ (∀ i, i ≠ slot b → t.serverKeys i = s.serverKeys i) ∧
    ∀ m group id mask, t.fakeKeyDown m group id mask b = t.freshKeyDown m group id mask b

def InTable (s : KeyState) (b : KeyButton) : Prop := b.toNat < kNumButtons ∨ s.serverKeys (slot b) = 0

instance (s : KeyState) (b : KeyButton) : Decidable (InTable s b) := inferInstanceAs (Decidable (_ ∨ _))

def ReleasesKey (s : KeyState) : Call → Prop
  | .keyUp b => Releases s b
  | _ => True

def MeetsTable (s : KeyState) : Call → Prop
  | .keyUp b => InTable s b
  | _ => True

variable {s : KeyState} {b : KeyButton}

lemma slot_of_lt (h : b.toNat < kNumButtons) : slot b = ⟨b.toNat, h⟩ := by
  apply Fin.ext
  change (b &&& kButtonMask).toNat = b.toNat
  rw [and_kButtonMask_toNat]
  exact Nat.mod_eq_of_lt h

lemma fakeKeyDown_fresh {m : KeyMap} {group : ℕ} {id : KeyID} {mask : KeyModifierMask}
    (h : s.serverKeys (slot b) = 0) :
    s.fakeKeyDown m group id mask b = s.freshKeyDown m group id mask b := by
  rw [fakeKeyDown, if_neg (not_not.mpr h)]

lemma fakeKeyUp_outside (hdown : s.serverKeys (slot b) ≠ 0) (h : ¬ b.toNat < kNumButtons) :
    s.fakeKeyUp b = none := by
  rw [fakeKeyUp, if_neg hdown, dif_neg h]

lemma releases_of_inTable (h : InTable s b) : Releases s b := by
  by_cases hdown : s.serverKeys (slot b) = 0
  · refine ⟨false, s, {}, ?_, hdown, fun _ _ => rfl, fun _ _ _ _ => fakeKeyDown_fresh hdown⟩
    rw [fakeKeyUp, if_pos hdown]
  · have hlt := h.resolve_right hdown
    refine ⟨_, _, _, by rw [fakeKeyUp, if_neg hdown, dif_pos hlt], ?_, ?_, ?_⟩
    · simp [slot_of_lt hlt]
    · intro i hi
      rw [slot_of_lt hlt] at hi
      simp [Function.update_of_ne hi]
    · intro m group id mask
      apply fakeKeyDown_fresh
      simp [slot_of_lt hlt]

lemma releases_iff : Releases s b ↔ InTable s b := by
  refine ⟨?_, releases_of_inTable⟩
  rintro ⟨result, t, faked, hup, -⟩
  by_contra hnot
  rw [InTable, not_or] at hnot
  rw [fakeKeyUp_outside hnot.2 hnot.1] at hup
  exact Option.some_ne_none _ hup.symm

lemma releasesKey_iff (s : KeyState) (c : Call) : ReleasesKey s c ↔ MeetsTable s c := by
  cases c with
  | keyUp b => exact releases_iff
  | _ => exact Iff.rfl

lemma isSome_next_iff (s : KeyState) (c : Call) : (s.next c).isSome = true ↔ MeetsTable s c := by
  cases c with
  | keyUp b =>
    change ((s.fakeKeyUp b).map fun r => r.2.1).isSome = true ↔ InTable s b
    rw [Option.isSome_map, ← releases_iff]
    constructor
    · intro hsome
      by_contra hnot
      rw [releases_iff, InTable, not_or] at hnot
      rw [fakeKeyUp_outside hnot.2 hnot.1] at hsome
      exact Bool.false_ne_true hsome
    · rintro ⟨result, t, faked, hup, -⟩
      rw [hup]
      rfl
  | _ => exact iff_of_true rfl trivial

/-- In a run every key that the server releases is released, and the table is never left, exactly if the button of
each `fakeKeyUp` is an index into the table or belongs to a key that is not down. -/
theorem run_releases_iff (calls : List Call) :
    (Along next ReleasesKey calls init ↔ Along next MeetsTable calls init) ∧
    ((runFrom next calls init).isSome = true ↔ Along next MeetsTable calls init) := by
  refine ⟨⟨Along.mono ?_, Along.mono ?_⟩, (isSome_runFrom calls init).trans ⟨Along.mono ?_, Along.mono ?_⟩⟩
  · exact fun s c => (releasesKey_iff s c).mp
  · exact fun s c => (releasesKey_iff s c).mpr
  · exact fun s c => (isSome_next_iff s c).mp
  · exact fun s c => (isSome_next_iff s c).mpr

def letterKey : KeyItem := ⟨0x61, 0, 38, 0, 0, 0, false, false, 0⟩

def letterMap : KeyMap := KeyMap.finish ⟨[(0x61, [[[letterKey]]])], 0, [], []⟩

/-- A key of the server with the button `0x226` shares its entry with the button `0x26`, and its release writes
behind the table. -/
theorem button_outside_table_not_released : ¬ ∀ calls, Along next ReleasesKey calls init := by
  intro hall
  have hrun := (hall [.keyDown letterMap 0 0x61 0 0x226, .keyUp 0x226]).2 _ rfl
  have hdown : (KeyState.fakeKeyDown init letterMap 0 0x61 0 0x226).1.serverKeys (slot 0x226) ≠ 0 := by
    decide
  rcases releases_iff.mp hrun.1 with hlt | hup
  · exact absurd hlt (by decide)
  · exact hdown hup

end InputLeap.Keys.KeyState
