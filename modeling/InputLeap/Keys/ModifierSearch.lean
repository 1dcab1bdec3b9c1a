import InputLeap.Keys.KeyMap

/-! Bringing the modifiers into a state. A modifier key that is sensitive to lower modifiers has these changed before it is
pressed, whether or not they were right for what was asked, and the last key that generates a modifier decides how
it is left. -/

namespace InputLeap.Keys.KeyMap

section Calls

variable (m : KeyMap) (button : KeyButton) (group : ℕ) (notRequiredMask : KeyModifierMask)

/-- One pass of the loop, with the call that adjusts the modifiers of the key. -/
def changeModifierCalling (call : KeyModifierMask → KeyModifierMask → Synthesis → Option (Bool × Synthesis)) (bit : ℕ)
    (active : Bool) (s : Synthesis) : Option (Bool × Synthesis) :=
  match m.keyForModifier button group bit with
  | none => some (notRequiredMask.getLsbD bit, s)
  | some item =>
    let mask : KeyModifierMask := BitVec.twoPow 32 bit
    let sensitive := item.sensitive &&& ~~~mask
    if sensitive ≠ 0 ∧ mask < sensitive then some (false, s)
    else
      (if sensitive ≠ 0 ∧ active = true then call item.required sensitive s else some (true, s)).bind fun adjusted =>
        if adjusted.1 = false then some adjusted
        else if adjusted.2.currentState &&& sensitive ≠ item.required &&& sensitive then some (false, adjusted.2)
        else some (true, m.addKeystrokes (if active then .modify else .unmodify) item adjusted.2)

def modifierLoopCalling (call : KeyModifierMask → KeyModifierMask → Synthesis → Option (Bool × Synthesis)) :
    ℕ → KeyModifierMask → KeyModifierMask → Synthesis → Option (Bool × Synthesis)
  | 0, _, _, s => some (true, s)
  | bit + 1, flip, requiredState, s =>
    if flip.getLsbD bit then
      (m.changeModifierCalling button group notRequiredMask call bit (requiredState.getLsbD bit) s).bind fun changed =>
        if changed.1 then modifierLoopCalling call bit flip requiredState changed.2 else some changed
    else modifierLoopCalling call bit flip requiredState s

/-- The function as it calls itself, with all bits in each loop. There is no result for calls that are nested deeper than
`depth`. -/
def keysForModifierStateCalling : ℕ → KeyModifierMask → KeyModifierMask → Synthesis → Option (Bool × Synthesis)
  | 0, _, _, _ => none
  | depth + 1, requiredState, sensitiveMask, s =>
    let flip := flipMask s.currentState requiredState sensitiveMask notRequiredMask
    if flip = 0 then some (true, s)
    else
      m.modifierLoopCalling button group notRequiredMask (keysForModifierStateCalling depth) kKeyModifierNumBits flip
        requiredState s

end Calls

section Bits

variable {mask : KeyModifierMask} {bit y : ℕ}

lemma lt_of_getLsbD (h : mask &&& ~~~BitVec.twoPow 32 bit ≤ BitVec.twoPow 32 bit)
    (hy : (mask &&& ~~~BitVec.twoPow 32 bit).getLsbD y = true) : y < bit := by
  have hlow : 2 ^ y ≤ 2 ^ bit := by
    calc 2 ^ y ≤ (mask &&& ~~~BitVec.twoPow 32 bit).toNat := Nat.ge_two_pow_of_testBit hy
      _ ≤ (BitVec.twoPow 32 bit).toNat := h
      _ ≤ 2 ^ bit := by
        rw [BitVec.toNat_twoPow]
        exact Nat.mod_le _ _
  have hne : y ≠ bit := by
    rintro rfl
    simp only [BitVec.getLsbD_and, BitVec.getLsbD_not, BitVec.getLsbD_twoPow] at hy
    simp_all
  have hle := (Nat.pow_le_pow_iff_right (by decide)).mp hlow
  omega

lemma and_eq_and_iff {a b : KeyModifierMask} :
    a &&& mask = b &&& mask ↔ ∀ y, mask.getLsbD y = true → a.getLsbD y = b.getLsbD y := by
  constructor
  · intro h y hy
    have hbit := congrArg (fun state => state.getLsbD y) h
    simpa only [BitVec.getLsbD_and, hy, Bool.and_true] using hbit
  · intro h
    apply BitVec.eq_of_getLsbD_eq
    intro y _
    rw [BitVec.getLsbD_and, BitVec.getLsbD_and]
    cases hy : mask.getLsbD y with
    | false => rw [Bool.and_false, Bool.and_false]
    | true => rw [h y hy]

lemma flipMask_getLsbD (state required sensitive notRequired : KeyModifierMask) (y : ℕ) :
    (flipMask state required sensitive notRequired).getLsbD y = true ↔
      state.getLsbD y ≠ required.getLsbD y ∧ (sensitive &&& ~~~notRequired).getLsbD y = true := by
  simp only [flipMask, BitVec.getLsbD_and, BitVec.getLsbD_xor, Bool.and_eq_true, bne_iff_ne]
  tauto

lemma le_of_followed (h : ¬ (mask ≠ 0 ∧ BitVec.twoPow 32 bit < mask)) : mask ≤ BitVec.twoPow 32 bit := by
  by_cases hzero : mask = 0
  · rw [hzero]
    exact Nat.zero_le _
  · exact Nat.le_of_not_lt fun hlt => h ⟨hzero, hlt⟩

end Bits

section Depth

variable {m : KeyMap} {button : KeyButton} {group : ℕ} {notRequired : KeyModifierMask}
  {call : KeyModifierMask → KeyModifierMask → Synthesis → Option (Bool × Synthesis)}

lemma modifierLoop_none {bits : ℕ} {flip : KeyModifierMask} (h : ∀ bit < bits, flip.getLsbD bit = false)
    (required : KeyModifierMask) (s : Synthesis) :
    m.modifierLoop button group notRequired bits flip required s = (true, s) := by
  induction bits with
  | zero => rfl
  | succ bit ih =>
    rw [modifierLoop, h bit bit.lt_succ_self, if_neg Bool.false_ne_true]
    exact ih fun b hb => h b (hb.trans bit.lt_succ_self)

lemma modifierLoop_of_zero (bits : ℕ) (required : KeyModifierMask) (s : Synthesis) :
    m.modifierLoop button group notRequired bits 0 required s = (true, s) :=
  modifierLoop_none (fun _ _ => BitVec.getLsbD_zero) required s

/-- The call for the key of a bit is the loop below the bit. -/
def Adjusts (m : KeyMap) (button : KeyButton) (group : ℕ) (notRequired : KeyModifierMask)
    (call : KeyModifierMask → KeyModifierMask → Synthesis → Option (Bool × Synthesis)) (bit : ℕ) : Prop :=
  ∀ required sensitive s, (∀ y, sensitive.getLsbD y = true → y < bit) →
    call required sensitive s =
      some (m.modifierLoop button group notRequired bit (flipMask s.currentState required sensitive notRequired) required s)

lemma changeModifierCalling_eq {bit : ℕ} (hcall : Adjusts m button group notRequired call bit) (active : Bool)
    (s : Synthesis) :
    m.changeModifierCalling button group notRequired call bit active s =
      some (m.changeModifier button group notRequired bit (m.modifierLoop button group notRequired bit) active s) := by
  rw [changeModifierCalling, changeModifier]
  cases m.keyForModifier button group bit with
  | none => rfl
  | some item =>
    dsimp only
    by_cases hhigh : item.sensitive &&& ~~~BitVec.twoPow 32 bit ≠ 0 ∧
        BitVec.twoPow 32 bit < item.sensitive &&& ~~~BitVec.twoPow 32 bit
    · rw [if_pos hhigh, if_pos hhigh]
    · have hbelow := fun y => lt_of_getLsbD (y := y) (le_of_followed hhigh)
      rw [if_neg hhigh, if_neg hhigh, hcall _ _ _ hbelow, ← apply_ite some, Option.bind_some]
      split_ifs
      all_goals rfl

lemma modifierLoopCalling_skip {bits n : ℕ} (h : bits ≤ n) {flip : KeyModifierMask}
    (hflip : ∀ y, bits ≤ y → y < n → flip.getLsbD y = false) (required : KeyModifierMask) (s : Synthesis) :
    m.modifierLoopCalling button group notRequired call n flip required s =
      m.modifierLoopCalling button group notRequired call bits flip required s := by
  induction n, h using Nat.le_induction with
  | base => rfl
  | succ n hn ih =>
    rw [modifierLoopCalling, hflip n hn n.lt_succ_self, if_neg Bool.false_ne_true]
    exact ih fun y hy hlt => hflip y hy (hlt.trans n.lt_succ_self)

lemma modifierLoopCalling_eq {bits : ℕ} (hcall : ∀ bit < bits, Adjusts m button group notRequired call bit)
    (flip required : KeyModifierMask) (s : Synthesis) :
    m.modifierLoopCalling button group notRequired call bits flip required s =
      some (m.modifierLoop button group notRequired bits flip required s) := by
  induction bits generalizing s with
  | zero => rfl
  | succ bit ih =>
    replace ih := ih fun b hb => hcall b (hb.trans bit.lt_succ_self)
    rw [modifierLoopCalling, modifierLoop]
    dsimp only
    by_cases hbit : flip.getLsbD bit = true
    · rw [if_pos hbit, if_pos hbit, changeModifierCalling_eq (hcall bit bit.lt_succ_self), Option.bind_some, ih,
        ← apply_ite some]
    · rw [if_neg hbit, if_neg hbit, ih]

lemma adjusts_calling {depth bits : ℕ} (hdepth : bits < depth) (hbits : bits ≤ kKeyModifierNumBits)
    {required sensitive : KeyModifierMask} {s : Synthesis}
    (hsensitive : ∀ y, bits ≤ y → y < kKeyModifierNumBits →
      (flipMask s.currentState required sensitive notRequired).getLsbD y = false) :
    m.keysForModifierStateCalling button group notRequired depth required sensitive s =
      some (m.modifierLoop button group notRequired bits (flipMask s.currentState required sensitive notRequired)
        required s) := by
  induction depth generalizing bits required sensitive s with
  | zero => omega
  | succ depth ih =>
    rw [keysForModifierStateCalling]
    split_ifs with hzero
    · rw [hzero, modifierLoop_of_zero]
    · rw [modifierLoopCalling_skip hbits hsensitive]
      apply modifierLoopCalling_eq
      intro bit hbit required sensitive s hlow
      apply ih (by omega) (by omega)
      intro y hy _
      rw [← Bool.not_eq_true, flipMask_getLsbD]
      rintro ⟨-, hmem⟩
      have hlt := hlow y (by simp_all)
      omega

end Depth

section Changes

def otherSensitive (item : KeyItem) (bit : ℕ) : KeyModifierMask := item.sensitive &&& ~~~BitVec.twoPow 32 bit

def DependsOnHigher (item : KeyItem) (bit : ℕ) : Prop :=
  otherSensitive item bit ≠ 0 ∧ (BitVec.twoPow 32 bit : KeyModifierMask) < otherSensitive item bit

instance (item : KeyItem) (bit : ℕ) : Decidable (DependsOnHigher item bit) := inferInstanceAs (Decidable (_ ∧ _))

structure KeyChange where
  item : KeyItem
  pressed : Bool
deriving DecidableEq

def KeyChange.apply (mask : KeyModifierMask) (c : KeyChange) : KeyModifierMask :=
  if c.pressed then mask ||| c.item.generates else mask &&& ~~~c.item.generates

def maskAfter (changes : List KeyChange) (mask : KeyModifierMask) : KeyModifierMask :=
  changes.foldl KeyChange.apply mask

def lastGenerating (y : ℕ) (changes : List KeyChange) : Option KeyChange :=
  changes.findRev? fun c => c.item.generates.getLsbD y

variable (m : KeyMap) (button : KeyButton) (group : ℕ) (notRequired : KeyModifierMask)

/-- The keys on the way to the modifiers below `bits`, from the highest that has to change: those on the way to what its key
is sensitive to, where it is to be pressed, and then its own. There is no way if a modifier that is required has no
key, or one that cannot be pressed or released as the modifiers then are. -/
def keysOnTheWay : ℕ → KeyModifierMask → KeyModifierMask → KeyModifierMask → Option (List KeyChange)
  | 0, _, _, _ => some []
  | bit + 1, flip, required, mask =>
    if flip.getLsbD bit then
      match m.keyForModifier button group bit with
      | none => if notRequired.getLsbD bit then keysOnTheWay bit flip required mask else none
      | some item =>
        if DependsOnHigher item bit then none
        else
          (if required.getLsbD bit then
              keysOnTheWay bit (flipMask mask item.required (otherSensitive item bit) notRequired) item.required mask
            else some []).bind fun first =>
            if maskAfter first mask &&& otherSensitive item bit = item.required &&& otherSensitive item bit then
              (keysOnTheWay bit flip required
                (KeyChange.apply (maskAfter first mask) ⟨item, required.getLsbD bit⟩)).map fun rest =>
                first ++ ⟨item, required.getLsbD bit⟩ :: rest
            else none
    else keysOnTheWay bit flip required mask

variable {m : KeyMap} {button : KeyButton} {group : ℕ} {notRequired : KeyModifierMask} {bit y : ℕ} {item : KeyItem}
  {active : Bool} {s : Synthesis}

lemma KeyChange.apply_getLsbD (mask : KeyModifierMask) (c : KeyChange) (y : ℕ) :
    (KeyChange.apply mask c).getLsbD y = if c.item.generates.getLsbD y then c.pressed else mask.getLsbD y := by
  rw [apply]
  cases hpressed : c.pressed with
  | true => cases hbit : c.item.generates.getLsbD y <;> simp [hbit]
  | false =>
    cases hbit : c.item.generates.getLsbD y with
    | true => simp [hbit]
    | false =>
      have hlt : mask.getLsbD y = true → y < 32 := BitVec.lt_of_getLsbD
      simp only [Bool.false_eq_true, if_false, BitVec.getLsbD_and, BitVec.getLsbD_not, hbit, Bool.not_false, Bool.and_true]
      cases hstate : mask.getLsbD y with
      | true => simp [hlt hstate]
      | false => rfl

lemma maskAfter_append (first rest : List KeyChange) (mask : KeyModifierMask) :
    maskAfter (first ++ rest) mask = maskAfter rest (maskAfter first mask) :=
  List.foldl_append

/-- The last key that generates a modifier decides whether it is set. -/
lemma maskAfter_getLsbD (changes : List KeyChange) (mask : KeyModifierMask) (y : ℕ) :
    (maskAfter changes mask).getLsbD y = (lastGenerating y changes).elim (mask.getLsbD y) KeyChange.pressed := by
  induction changes generalizing mask with
  | nil => rfl
  | cons c changes ih =>
    change (maskAfter changes (KeyChange.apply mask c)).getLsbD y = _
    rw [ih, lastGenerating, lastGenerating, List.findRev?]
    cases changes.findRev? fun c => c.item.generates.getLsbD y with
    | some last => rfl
    | none =>
      rw [Option.elim_none, KeyChange.apply_getLsbD]
      cases c.item.generates.getLsbD y <;> rfl

lemma addKeystrokes_state (m : KeyMap) (active : Bool) (item : KeyItem) (s : Synthesis) :
    (m.addKeystrokes (if active then .modify else .unmodify) item s).currentState =
      KeyChange.apply s.currentState ⟨item, active⟩ := by
  rw [KeyChange.apply]
  cases active with
  | true =>
    simp only [if_true, addKeystrokes]
    split_ifs <;> rfl
  | false =>
    simp only [Bool.false_eq_true, if_false, addKeystrokes]
    split_ifs <;> rfl

lemma flipMask_eq_zero {mask required sensitive : KeyModifierMask}
    (h : mask &&& sensitive = required &&& sensitive) : flipMask mask required sensitive notRequired = 0 := by
  apply BitVec.eq_of_getLsbD_eq
  intro y _
  have hzero : (0 : KeyModifierMask).getLsbD y = false := BitVec.getLsbD_zero
  rw [hzero, ← Bool.not_eq_true, flipMask_getLsbD]
  rintro ⟨hwrong, hsensitive⟩
  rw [BitVec.getLsbD_and, Bool.and_eq_true] at hsensitive
  exact hwrong (and_eq_and_iff.mp h y hsensitive.1)

/-- The modifiers that a key to be pressed is sensitive to, as the loop brings them about. -/
def readied (m : KeyMap) (button : KeyButton) (group : ℕ) (notRequired : KeyModifierMask) (bit : ℕ) (item : KeyItem)
    (active : Bool) (s : Synthesis) : Bool × Synthesis :=
  if active then
    m.modifierLoop button group notRequired bit
      (flipMask s.currentState item.required (otherSensitive item bit) notRequired) item.required s
  else (true, s)

lemma changeModifier_missing (hkey : m.keyForModifier button group bit = none) :
    m.changeModifier button group notRequired bit (m.modifierLoop button group notRequired bit) active s =
      (notRequired.getLsbD bit, s) := by
  rw [changeModifier, hkey]

lemma changeModifier_high (hkey : m.keyForModifier button group bit = some item) (hhigh : DependsOnHigher item bit) :
    m.changeModifier button group notRequired bit (m.modifierLoop button group notRequired bit) active s = (false, s) := by
  rw [changeModifier, hkey]
  exact if_pos hhigh

lemma changeModifier_key (hkey : m.keyForModifier button group bit = some item) (hhigh : ¬ DependsOnHigher item bit) :
    m.changeModifier button group notRequired bit (m.modifierLoop button group notRequired bit) active s =
      if (m.readied button group notRequired bit item active s).1 = false then
        m.readied button group notRequired bit item active s
      else if (m.readied button group notRequired bit item active s).2.currentState &&& otherSensitive item bit ≠
          item.required &&& otherSensitive item bit then
        (false, (m.readied button group notRequired bit item active s).2)
      else
        (true, m.addKeystrokes (if active then .modify else .unmodify) item
          (m.readied button group notRequired bit item active s).2) := by
  have hready : (if otherSensitive item bit ≠ 0 ∧ active = true then
      m.modifierLoop button group notRequired bit
        (flipMask s.currentState item.required (otherSensitive item bit) notRequired) item.required s else (true, s)) =
      m.readied button group notRequired bit item active s := by
    rw [readied]
    by_cases hsensitive : otherSensitive item bit = 0
    · have hflip : flipMask s.currentState item.required (otherSensitive item bit) notRequired = 0 := by
        apply flipMask_eq_zero
        rw [hsensitive]
        exact BitVec.and_zero.trans BitVec.and_zero.symm
      rw [if_neg fun h => h.1 hsensitive, hflip, modifierLoop_of_zero]
      split_ifs <;> rfl
    · simp only [ne_eq, hsensitive, not_false_eq_true, true_and]
  rw [← hready, changeModifier, hkey]
  exact if_neg hhigh

lemma modifierLoop_way (m : KeyMap) (button : KeyButton) (group : ℕ) (notRequired : KeyModifierMask) (bits : ℕ)
    (flip required : KeyModifierMask) (s : Synthesis) :
    (m.keysOnTheWay button group notRequired bits flip required s.currentState).map
        (fun changes => maskAfter changes s.currentState) =
      if (m.modifierLoop button group notRequired bits flip required s).1 then
        some (m.modifierLoop button group notRequired bits flip required s).2.currentState
      else none := by
  induction bits generalizing flip required s with
  | zero => rfl
  | succ bit ih =>
    rw [keysOnTheWay, modifierLoop]
    dsimp only
    by_cases hflip : flip.getLsbD bit
    swap
    · rw [if_neg hflip, if_neg hflip]
      exact ih _ _ s
    rw [if_pos hflip, if_pos hflip]
    cases hkey : m.keyForModifier button group bit with
    | none =>
      rw [changeModifier_missing hkey]
      dsimp only
      cases notRequired.getLsbD bit with
      | true => exact ih _ _ s
      | false => rfl
    | some item =>
      dsimp only
      by_cases hhigh : DependsOnHigher item bit
      · rw [changeModifier_high hkey hhigh, if_pos hhigh]
        rfl
      rw [if_neg hhigh, changeModifier_key hkey hhigh]
      have hready : (if required.getLsbD bit then
          m.keysOnTheWay button group notRequired bit
            (flipMask s.currentState item.required (otherSensitive item bit) notRequired) item.required s.currentState
          else some []).map (fun changes => maskAfter changes s.currentState) =
          if (m.readied button group notRequired bit item (required.getLsbD bit) s).1 then
            some (m.readied button group notRequired bit item (required.getLsbD bit) s).2.currentState else none := by
        rw [readied]
        by_cases hactive : required.getLsbD bit
        · rw [if_pos hactive, if_pos hactive, ih]
        · rw [if_neg hactive, if_neg hactive, if_pos rfl]
          rfl
      generalize (if required.getLsbD bit then
          m.keysOnTheWay button group notRequired bit
            (flipMask s.currentState item.required (otherSensitive item bit) notRequired) item.required s.currentState
          else some []) = first at hready ⊢
      generalize m.readied button group notRequired bit item (required.getLsbD bit) s = ready at hready ⊢
      rcases ready with ⟨_ | _, u⟩
      · obtain rfl := Option.map_eq_none_iff.mp hready
        rfl
      · obtain ⟨first, rfl, hfirst⟩ := Option.map_eq_some_iff.mp hready
        have hok : ¬ ((true, u).1 = false) := Bool.noConfusion
        dsimp only at hfirst
        rw [Option.bind_some, if_neg hok, hfirst]
        by_cases hmatch : u.currentState &&& otherSensitive item bit = item.required &&& otherSensitive item bit
        · rw [if_pos hmatch, if_neg (not_not.mpr hmatch), if_pos rfl, ← ih, addKeystrokes_state, Option.map_map]
          congr 1
          funext rest
          rw [Function.comp_apply, maskAfter_append, hfirst]
          rfl
        · rw [if_neg hmatch, if_pos hmatch]
          rfl

lemma keysForModifierState_eq (m : KeyMap) (button : KeyButton) (group : ℕ)
    (required sensitive notRequired : KeyModifierMask) (s : Synthesis) :
    m.keysForModifierState button group required sensitive notRequired s =
      m.modifierLoop button group notRequired kKeyModifierNumBits
        (flipMask s.currentState required sensitive notRequired) required s := by
  rw [keysForModifierState]
  split_ifs with hzero
  · rw [hzero, modifierLoop_of_zero]
  · rfl

structure Request where
  map : KeyMap
  button : KeyButton
  group : ℕ
  state : KeyModifierMask
  requiredState : KeyModifierMask
  sensitiveMask : KeyModifierMask
  notRequiredMask : KeyModifierMask

namespace Request

def wanted (r : Request) : KeyModifierMask := r.sensitiveMask &&& ~~~r.notRequiredMask

def way (r : Request) : Option (List KeyChange) :=
  r.map.keysOnTheWay r.button r.group r.notRequiredMask kKeyModifierNumBits
    (flipMask r.state r.requiredState r.sensitiveMask r.notRequiredMask) r.requiredState r.state

/-- The last key on the way that generates a modifier leaves it as required, and one that none of them generates is
right from the start. -/
def LastsRight (r : Request) (changes : List KeyChange) : Prop :=
  ∀ y < 32, r.wanted.getLsbD y = true →
    (lastGenerating y changes).elim (r.state.getLsbD y) KeyChange.pressed = r.requiredState.getLsbD y

instance (r : Request) (changes : List KeyChange) : Decidable (r.LastsRight changes) :=
  inferInstanceAs (Decidable (∀ y < 32, _ → _))

end Request

variable (m : KeyMap) (button : KeyButton) (group : ℕ) (requiredState sensitiveMask notRequiredMask : KeyModifierMask)
  (s : Synthesis)

def request : Request := ⟨m, button, group, s.currentState, requiredState, sensitiveMask, notRequiredMask⟩

lemma lastsRight_iff {changes : List KeyChange} :
    (m.request button group requiredState sensitiveMask notRequiredMask s).LastsRight changes ↔
      maskAfter changes s.currentState &&& (sensitiveMask &&& ~~~notRequiredMask) =
        requiredState &&& (sensitiveMask &&& ~~~notRequiredMask) := by
  rw [and_eq_and_iff]
  constructor
  · intro h y hwanted
    rw [maskAfter_getLsbD]
    exact h y (BitVec.lt_of_getLsbD hwanted) hwanted
  · intro h y _ hwanted
    have hright := h y hwanted
    rwa [maskAfter_getLsbD] at hright

end Changes

section Example

def plainShift : KeyItem := ⟨kKeyShiftL, 0, 50, 0, 0, keyModifierShift, false, false, 0⟩

def shiftedControl : KeyItem := ⟨kKeyControlL, 0, 37, keyModifierShift, keyModifierShift, keyModifierControl, false, false, 0⟩

def shiftedMap : KeyMap := ⟨[], 1, [[plainShift], [shiftedControl]], []⟩

end Example

end InputLeap.Keys.KeyMap
