import InputLeap.Keys.KeyState
import InputLeap.Keys.ModifierSearch
import InputLeap.Lib.Reachable

/-! Whether the modifiers that the key state records follow the keystrokes that are synthesized. `mapKey`
works on a copy of the modifiers, except for the keys that set and clear modifiers. -/

namespace InputLeap.Keys

open InputLeap.Lib

namespace KeyMap

variable {m : KeyMap} {s : Synthesis} {item : KeyItem} {group : ℕ} {button : KeyButton}

def Extends (s t : Synthesis) : Prop := ∃ more, t.keystrokes = s.keystrokes ++ more

lemma Extends.refl (s : Synthesis) : Extends s s := ⟨[], (List.append_nil _).symm⟩

lemma Extends.trans {s t u : Synthesis} (hst : Extends s t) (htu : Extends t u) : Extends s u := by
  obtain ⟨more, hmore⟩ := hst
  obtain ⟨rest, hrest⟩ := htu
  exact ⟨more ++ rest, by rw [hrest, hmore, List.append_assoc]⟩

lemma Extends.ne_nil {s t : Synthesis} (h : Extends s t) (hs : s.keystrokes ≠ []) : t.keystrokes ≠ [] := by
  obtain ⟨more, hmore⟩ := h
  rw [hmore]
  exact List.append_ne_nil_of_left_ne_nil hs more

lemma extends_push (s : Synthesis) (k : Keystroke) : Extends s (s.push k) := ⟨[k], rfl⟩

lemma extends_pushAll (s : Synthesis) (ks : List Keystroke) : Extends s (s.pushAll ks) := ⟨ks, rfl⟩

lemma addKeystrokes_extends (m : KeyMap) (type : EKeystroke) (item : KeyItem) (s : Synthesis) :
    Extends s (m.addKeystrokes type item s) := by
  cases type with
  | press =>
    rw [addKeystrokes]
    split_ifs <;> exact ⟨_, rfl⟩
  | release =>
    rw [addKeystrokes]
    split_ifs <;> exact ⟨_, rfl⟩
  | autorepeat => exact extends_pushAll s _
  | click => exact extends_pushAll s _
  | modify =>
    simp only [addKeystrokes]
    split_ifs <;> exact ⟨_, rfl⟩
  | unmodify =>
    simp only [addKeystrokes]
    split_ifs <;> exact ⟨_, rfl⟩

lemma addKeystrokes_ne_nil (m : KeyMap) {type : EKeystroke} (item : KeyItem) (s : Synthesis)
    (h : type = .press ∨ type = .autorepeat ∨ type = .click) : (m.addKeystrokes type item s).keystrokes ≠ [] := by
  rcases h with rfl | rfl | rfl
  · have hpush : (s.push (pressKey item)).keystrokes ≠ [] := by simp [Synthesis.push]
    rw [addKeystrokes]
    split_ifs <;> exact hpush
  · simp [addKeystrokes, Synthesis.pushAll]
  · simp [addKeystrokes, Synthesis.pushAll]

lemma keysForKeyItem_ne_nil {desired override : KeyModifierMask} {isAutoRepeat : Bool} {group' : ℕ} {t : Synthesis}
    (h : m.keysForKeyItem item desired override isAutoRepeat group s = some (group', t)) : t.keystrokes ≠ [] := by
  simp only [keysForKeyItem] at h
  split_ifs at h
  all_goals
    obtain ⟨-, rfl⟩ := Prod.mk.inj (Option.some.inj h)
    exact addKeystrokes_ne_nil m item _ (by simp)

lemma keysForKeyItems_ne_nil {desired override : KeyModifierMask} {isAutoRepeat : Bool} {items : KeyItemList}
    {group' : ℕ} {t : Synthesis} (hitems : items ≠ [])
    (h : m.keysForKeyItems desired override isAutoRepeat items group s = some (group', t)) :
    t.keystrokes ≠ [] := by
  induction items generalizing group s with
  | nil => exact absurd rfl hitems
  | cons item items ih =>
    obtain ⟨⟨group₁, s₁⟩, hitem, hrest⟩ := Option.bind_eq_some_iff.mp h
    cases items with
    | nil =>
      obtain ⟨-, rfl⟩ := Prod.mk.inj (Option.some.inj hrest)
      exact keysForKeyItem_ne_nil hitem
    | cons item' items => exact ih (List.cons_ne_nil _ _) hrest

lemma foldl_extends {α : Type} {f : Synthesis → α → Synthesis} (hf : ∀ s a, Extends s (f s a)) (l : List α)
    (s : Synthesis) : Extends s (l.foldl f s) := by
  induction l generalizing s with
  | nil => exact .refl s
  | cons a l ih => exact (hf s a).trans (ih _)

lemma keysToRestoreModifiers_extends (m : KeyMap) (item : KeyItem) (desired : ModifierToKeys) (s : Synthesis) :
    Extends s (m.keysToRestoreModifiers item desired s) := by
  refine (foldl_extends ?_ s.activeModifiers s).trans (foldl_extends ?_ desired _)
  · intro s e
    rw [releaseUnwanted]
    split_ifs
    · exact addKeystrokes_extends m _ _ s
    · exact addKeystrokes_extends m _ _ s
    · exact .refl s
  · intro s e
    rw [pressWanted]
    split_ifs
    · exact addKeystrokes_extends m _ _ s
    · exact addKeystrokes_extends m _ _ s
    · exact .refl s

def MapsOrKeeps (s : Synthesis) : Option KeyItem × Synthesis → Prop
  | (some _, t) => t.keystrokes ≠ []
  | (none, t) => t.activeModifiers = s.activeModifiers ∧ t.currentState = s.currentState

lemma mapItems_mapsOrKeeps (m : KeyMap) (items : Option KeyItemList) (group : ℕ)
    (desired override : KeyModifierMask) (isAutoRepeat : Bool) (s : Synthesis) :
    MapsOrKeeps s (m.mapItems items group desired override isAutoRepeat s) := by
  rcases items with _ | items
  · exact ⟨rfl, rfl⟩
  · rw [mapItems]
    rcases hlast : items.getLast? with _ | keyItem
    · exact ⟨rfl, rfl⟩
    · rcases hkeys : m.keysForKeyItems desired override isAutoRepeat items group s with _ | ⟨newGroup, new⟩
      · exact ⟨rfl, rfl⟩
      · have hitems : items ≠ [] := by
          rintro rfl
          exact Option.some_ne_none _ hlast.symm
        have hrestored := (keysToRestoreModifiers_extends m keyItem s.activeModifiers new).ne_nil
          (keysForKeyItems_ne_nil hitems hkeys)
        dsimp only
        split_ifs
        · exact (extends_push _ _).ne_nil hrestored
        · exact hrestored

section Changes

variable (m : KeyMap) (button : KeyButton) (group : ℕ)

/-- The first modifier key that is pressed or released: that of the highest modifier to change or, where it can not be
pressed yet, of the highest one that it waits for. -/
def firstKey : ℕ → KeyModifierMask → KeyModifierMask → KeyModifierMask → Option KeyItem
  | 0, _, _, _ => none
  | bit + 1, flip, required, current =>
    if flip.getLsbD bit then
      (m.keyForModifier button group bit).bind fun item =>
        if DependsOnHigher item bit then none
        else if current &&& otherSensitive item bit = item.required &&& otherSensitive item bit then some item
        else if required.getLsbD bit then
          firstKey bit (flipMask current item.required (otherSensitive item bit) 0) item.required current
        else none
    else firstKey bit flip required current

/-- A modifier to change takes a keystroke: it is to be set, or its key locks or is held. -/
def takesKeystroke (active : ModifierToKeys) (required : KeyModifierMask) (bit : ℕ) : Bool :=
  (m.keyForModifier button group bit).any fun item =>
    required.getLsbD bit || item.lock || decide (MultiMap.equalRange item.generates active ≠ [])

end Changes

lemma changeModifier_fails {bit : ℕ} {active : Bool} (hkey : m.keyForModifier button group bit = none) :
    m.changeModifier button group 0 bit (m.modifierLoop button group 0 bit) active s = (false, s) := by
  rw [changeModifier_missing hkey]
  exact Prod.ext BitVec.getLsbD_zero rfl

/-- Where no modifier key can be pressed or released the loop changes nothing. -/
lemma modifierLoop_firstKey {bits : ℕ} {flip required : KeyModifierMask}
    (h : m.firstKey button group bits flip required s.currentState = none) :
    (m.modifierLoop button group 0 bits flip required s).2 = s := by
  induction bits generalizing flip required with
  | zero => rfl
  | succ bit ih =>
    rw [modifierLoop]
    rw [firstKey] at h
    by_cases hflip : flip.getLsbD bit
    swap
    · rw [if_neg hflip] at h ⊢
      exact ih h
    rw [if_pos hflip] at h ⊢
    have hstuck : m.changeModifier button group 0 bit (m.modifierLoop button group 0 bit) (required.getLsbD bit) s =
        (false, s) := by
      cases hkey : m.keyForModifier button group bit with
      | none => exact changeModifier_fails hkey
      | some item =>
        rw [hkey, Option.bind_some] at h
        by_cases hhigh : DependsOnHigher item bit
        · exact changeModifier_high hkey hhigh
        rw [if_neg hhigh] at h
        split_ifs at h with hmatch hactive
        -- the loop for the key's own modifiers leaves them as they are, which is not as the key needs them
        all_goals
          have hready : (m.readied button group 0 bit item (required.getLsbD bit) s).2 = s := by
            rw [readied]
            split_ifs
            first | exact ih h | rfl
          rw [changeModifier_key hkey hhigh, hready, if_pos hmatch]
          split_ifs with hfail
          · exact Prod.ext hfail hready
          · rfl
    rw [hstuck, if_neg Bool.false_ne_true]

lemma modifierLoop_extends (m : KeyMap) (button : KeyButton) (group bits : ℕ) (flip required : KeyModifierMask)
    (s : Synthesis) : Extends s (m.modifierLoop button group 0 bits flip required s).2 := by
  induction bits generalizing flip required s with
  | zero => exact .refl s
  | succ bit ih =>
    have hchange : Extends s
        (m.changeModifier button group 0 bit (m.modifierLoop button group 0 bit) (required.getLsbD bit) s).2 := by
      cases hkey : m.keyForModifier button group bit with
      | none =>
        rw [changeModifier_fails hkey]
        exact .refl s
      | some item =>
        by_cases hhigh : DependsOnHigher item bit
        · rw [changeModifier_high hkey hhigh]
          exact .refl s
        have hready : Extends s (m.readied button group 0 bit item (required.getLsbD bit) s).2 := by
          rw [readied]
          split_ifs
          · exact ih _ _ s
          · exact .refl s
        rw [changeModifier_key hkey hhigh]
        split_ifs
        · exact hready
        · exact hready
        · exact hready.trans (addKeystrokes_extends m _ item _)
        · exact hready.trans (addKeystrokes_extends m _ item _)
    rw [modifierLoop]
    dsimp only
    split_ifs
    · exact hchange.trans (ih _ _ _)
    · exact hchange
    · exact ih _ _ s

/-- A modifier that has been changed has made keystrokes, or it does not take any and its keys were not held. -/
lemma changeModifier_keystrokes {bit : ℕ} {required : KeyModifierMask}
    (h : (m.changeModifier button group 0 bit (m.modifierLoop button group 0 bit) (required.getLsbD bit) s).1 = true) :
    (m.changeModifier button group 0 bit (m.modifierLoop button group 0 bit) (required.getLsbD bit) s).2.keystrokes ≠ [] ∨
    m.takesKeystroke button group s.activeModifiers required bit = false ∧
    (m.changeModifier button group 0 bit (m.modifierLoop button group 0 bit)
      (required.getLsbD bit) s).2.activeModifiers = s.activeModifiers := by
  cases hkey : m.keyForModifier button group bit with
  | none =>
    rw [changeModifier_fails hkey] at h
    exact absurd h Bool.false_ne_true
  | some item =>
    by_cases hhigh : DependsOnHigher item bit
    · rw [changeModifier_high hkey hhigh] at h
      exact absurd h Bool.false_ne_true
    rw [changeModifier_key hkey hhigh] at h ⊢
    split_ifs at h ⊢ with hfail hmatch hactive
    · exact absurd h (by rw [hfail]; exact Bool.false_ne_true)
    · left
      simp only [addKeystrokes]
      split_ifs <;> simp [Synthesis.push, Synthesis.pushAll, Synthesis.activate]
    · -- the key is released, so nothing was pressed before it
      have hready : (m.readied button group 0 bit item (required.getLsbD bit) s).2 = s := by
        rw [readied, if_neg hactive]
      rw [hready]
      cases hlock : item.lock with
      | true =>
        left
        simp only [addKeystrokes, hlock, if_true]
        split_ifs <;> simp [Synthesis.push, Synthesis.pushAll, Synthesis.deactivate]
      | false =>
        by_cases hheld : MultiMap.equalRange item.generates s.activeModifiers = []
        · right
          refine ⟨by simp [takesKeystroke, hkey, hactive, hlock, hheld], ?_⟩
          simp only [addKeystrokes, hlock, Bool.false_eq_true, if_false, hheld]
          exact MultiMap.erase_eq_self hheld
        · left
          simp [addKeystrokes, hlock, Synthesis.pushAll, Synthesis.deactivate, hheld]

lemma modifierLoop_keystrokes {bits : ℕ} {flip required : KeyModifierMask}
    (hok : (m.modifierLoop button group 0 bits flip required s).1 = true)
    (h : ∃ bit < bits, flip.getLsbD bit = true ∧
      m.takesKeystroke button group s.activeModifiers required bit = true) :
    (m.modifierLoop button group 0 bits flip required s).2.keystrokes ≠ [] := by
  induction bits generalizing s with
  | zero => exact absurd h (by simp)
  | succ bit ih =>
    obtain ⟨b, hb, hflipb, htakes⟩ := h
    rw [modifierLoop] at hok ⊢
    dsimp only at hok ⊢
    split_ifs at hok ⊢ with hflip hchanged
    · rcases changeModifier_keystrokes hchanged with hkeys | ⟨hquiet, hactive⟩
      · exact (modifierLoop_extends ..).ne_nil hkeys
      · have hne : b ≠ bit := by
          rintro rfl
          rw [htakes] at hquiet
          exact Bool.noConfusion hquiet
        refine ih hok ⟨b, by omega, hflipb, ?_⟩
        rw [hactive]
        exact htakes
    · exact absurd hok hchanged
    · have hne : b ≠ bit := by
        rintro rfl
        exact hflip hflipb
      exact ih hok ⟨b, by omega, hflipb, htakes⟩

def changesModifiers (id : KeyID) : Bool := decide (id = kKeySetModifiers ∨ id = kKeyClearModifiers)

def requestedState (id : KeyID) (current mask : KeyModifierMask) : KeyModifierMask :=
  if id = kKeySetModifiers then mask else current &&& ~~~mask

lemma mapKey_changes {id : KeyID} (hid : changesModifiers id = true) (mask : KeyModifierMask) (isAutoRepeat : Bool) :
    m.mapKey id group mask isAutoRepeat s =
      (if (m.keysForModifierState 0 group (requestedState id s.currentState mask) mask 0 s).1 then
        some modifierKeyItem else none,
        (m.keysForModifierState 0 group (requestedState id s.currentState mask) mask 0 s).2) := by
  rcases of_decide_eq_true hid with rfl | rfl
  · rw [requestedState, if_pos rfl, mapKey, if_neg (by decide), if_neg (by decide), if_neg (by decide), if_pos rfl]
    rcases m.keysForModifierState 0 group mask mask 0 s with ⟨_ | _, t⟩ <;> rfl
  · have hstate : requestedState kKeyClearModifiers s.currentState mask = s.currentState &&& ~~~mask :=
      if_neg (by decide)
    rw [hstate, mapKey, if_neg (by decide), if_neg (by decide), if_neg (by decide), if_neg (by decide), if_pos rfl]
    rcases m.keysForModifierState 0 group (s.currentState &&& ~~~mask) mask 0 s with ⟨_ | _, t⟩ <;> rfl

def entryOf (m : KeyMap) (id : KeyID) (group : ℕ) (mask : KeyModifierMask) : Option KeyItemList :=
  m.findKeyItems id group fun entries =>
    if !isModifierID id && isCommand mask then findCommandKey entries mask else findBestKey entries mask

lemma mapItems_getLast? {items : Option KeyItemList} {desired override : KeyModifierMask} {isAutoRepeat : Bool}
    (h : (m.mapItems items group desired override isAutoRepeat s).1 = some item) :
    items.bind List.getLast? = some item := by
  rcases items with _ | items
  · exact absurd h.symm (Option.some_ne_none _)
  · rw [mapItems] at h
    change items.getLast? = some item
    rcases hlast : items.getLast? with _ | keyItem
    · simp [hlast] at h
    · rcases hkeys : m.keysForKeyItems desired override isAutoRepeat items group s with _ | ⟨newGroup, new⟩
      · simp [hlast, hkeys] at h
      · simpa [hlast, hkeys] using h

lemma mapKey_entryOf {id : KeyID} (hid : changesModifiers id = false) {mask : KeyModifierMask} {isAutoRepeat : Bool}
    (h : (m.mapKey id group mask isAutoRepeat s).1 = some item) :
    (m.entryOf id group mask).bind List.getLast? = some item := by
  obtain ⟨hset, hclear⟩ := not_or.mp (of_decide_eq_false hid)
  rw [mapKey] at h
  split_ifs at h with hnext hprev hmodifier hcommand
  · simpa [entryOf, hmodifier] using mapItems_getLast? h
  · simpa [entryOf, hmodifier, hcommand] using mapItems_getLast? h
  · simpa [entryOf, hmodifier, hcommand] using mapItems_getLast? h

lemma mapKey_keeps {id : KeyID} (hid : changesModifiers id = false) (mask : KeyModifierMask) (isAutoRepeat : Bool) :
    MapsOrKeeps s (m.mapKey id group mask isAutoRepeat s) := by
  obtain ⟨hset, hclear⟩ := not_or.mp (of_decide_eq_false hid)
  rw [mapKey]
  split_ifs
  · exact ⟨rfl, rfl⟩
  · exact ⟨rfl, rfl⟩
  · exact mapItems_mapsOrKeeps ..
  · exact mapItems_mapsOrKeeps ..
  · exact mapItems_mapsOrKeeps ..

end KeyMap

namespace KeyState

open KeyMap

/-- A call that hands no keystrokes to `fakeKeys` leaves the modifiers as they are. -/
def KeepsModifiers (s : KeyState) (r : KeyState × Faked) : Prop :=
  r.2.keys = [] → r.1.activeModifiers = s.activeModifiers ∧ r.1.mask = s.mask

def TracksModifiers (s : KeyState) : Call → Prop
  | .keyDown m group id mask serverID => s.KeepsModifiers (s.fakeKeyDown m group id mask serverID)
  | .keyRepeat m group id mask count serverID =>
    s.KeepsModifiers (s.fakeKeyRepeat m group id mask count serverID).2
  | _ => True

section Conditions

variable (s : KeyState) (m : KeyMap) (group : ℕ) (id : KeyID) (mask : KeyModifierMask)

def toChange : KeyModifierMask := flipMask s.mask (requestedState id s.mask mask) mask 0

def nothingChanges : Bool :=
  (m.firstKey 0 group kKeyModifierNumBits (s.toChange id mask) (requestedState id s.mask mask) s.mask).isNone

/-- There is a way to all modifiers that have to change, and one of them takes a keystroke. -/
def changesWithKeystroke : Bool :=
  (m.keysOnTheWay 0 group 0 kKeyModifierNumBits (s.toChange id mask) (requestedState id s.mask mask) s.mask).isSome &&
    (List.range kKeyModifierNumBits).any fun bit => (s.toChange id mask).getLsbD bit &&
      m.takesKeystroke 0 group s.activeModifiers (requestedState id s.mask mask) bit

def meetsFresh : Bool :=
  !changesModifiers id || s.nothingChanges m group id mask || s.changesWithKeystroke m group id mask

def meetsRepeat : Bool :=
  if changesModifiers id then s.nothingChanges m group id mask
  else ((m.entryOf id group mask).bind List.getLast?).all fun item => decide (item.button &&& kButtonMask ≠ 0)

end Conditions

def meetsTracking (s : KeyState) : Call → Bool
  | .keyDown m group id mask serverID =>
    if s.serverKeys (slot serverID) = 0 then s.meetsFresh m group id mask else s.meetsRepeat m group id mask
  | .keyRepeat m group id mask _ serverID =>
    decide (s.serverKeys (slot serverID) = 0) || s.meetsRepeat m group id mask
  | _ => true

def MeetsTracking (s : KeyState) (c : Call) : Prop := s.meetsTracking c = true

instance (s : KeyState) (c : Call) : Decidable (MeetsTracking s c) := inferInstanceAs (Decidable (_ = true))

variable {s : KeyState} {m : KeyMap} {group : ℕ} {id : KeyID} {mask : KeyModifierMask} {serverID : KeyButton}

lemma mapKey_nothingChanges (hid : changesModifiers id = true) (h : s.nothingChanges m group id mask = true)
    (isAutoRepeat : Bool) : (s.mapKey m id group mask isAutoRepeat).2 = ⟨s.activeModifiers, s.mask, []⟩ := by
  rw [mapKey, mapKey_changes hid]
  change (m.keysForModifierState 0 group (requestedState id s.mask mask) mask 0 ⟨s.activeModifiers, s.mask, []⟩).2 = _
  rw [keysForModifierState_eq]
  exact modifierLoop_firstKey (Option.isNone_iff_eq_none.mp h)

lemma mapKey_changesWithKeystroke (hid : changesModifiers id = true)
    (h : s.changesWithKeystroke m group id mask = true) (isAutoRepeat : Bool) :
    (s.mapKey m id group mask isAutoRepeat).1 = some modifierKeyItem ∧
      (s.mapKey m id group mask isAutoRepeat).2.keystrokes ≠ [] := by
  obtain ⟨hbrought, htakes⟩ := (Bool.and_eq_true _ _).mp h
  obtain ⟨bit, hbit, htakes⟩ := List.any_eq_true.mp htakes
  obtain ⟨hflip, htakes⟩ := (Bool.and_eq_true _ _).mp htakes
  obtain ⟨changes, hchanges⟩ := Option.isSome_iff_exists.mp hbrought
  have hok : (m.modifierLoop 0 group 0 kKeyModifierNumBits (s.toChange id mask) (requestedState id s.mask mask)
      ⟨s.activeModifiers, s.mask, []⟩).1 = true := by
    have hway := modifierLoop_way m 0 group 0 kKeyModifierNumBits (s.toChange id mask) (requestedState id s.mask mask)
      ⟨s.activeModifiers, s.mask, []⟩
    dsimp only at hway
    rw [hchanges, Option.map_some] at hway
    by_contra hfail
    rw [if_neg hfail] at hway
    exact Option.some_ne_none _ hway
  have hkeys := modifierLoop_keystrokes hok ⟨bit, List.mem_range.mp hbit, hflip, htakes⟩
  rw [mapKey, mapKey_changes hid]
  simp only [keysForModifierState_eq]
  exact ⟨if_pos hok, hkeys⟩

lemma mapKey_cases (hid : changesModifiers id = false) (isAutoRepeat : Bool) :
    (∃ new, s.mapKey m id group mask isAutoRepeat = (none, new) ∧ new.activeModifiers = s.activeModifiers ∧
      new.currentState = s.mask) ∨
    ∃ item new, s.mapKey m id group mask isAutoRepeat = (some item, new) ∧ new.keystrokes ≠ [] ∧
      (m.entryOf id group mask).bind List.getLast? = some item := by
  have hkeeps : MapsOrKeeps ⟨s.activeModifiers, s.mask, []⟩ (s.mapKey m id group mask isAutoRepeat) :=
    mapKey_keeps hid mask isAutoRepeat
  have hentry : ∀ item, (s.mapKey m id group mask isAutoRepeat).1 = some item →
      (m.entryOf id group mask).bind List.getLast? = some item := fun item => mapKey_entryOf hid
  rcases hmap : s.mapKey m id group mask isAutoRepeat with ⟨_ | item, new⟩
  · rw [hmap] at hkeeps
    exact .inl ⟨new, rfl, hkeeps⟩
  · rw [hmap] at hkeeps hentry
    exact .inr ⟨item, new, rfl, hkeeps, hentry item rfl⟩

lemma releaseOldKey_ne_nil {localID oldLocalID : KeyButton} {keys : List Keystroke} (h : keys ≠ []) :
    releaseOldKey localID oldLocalID keys ≠ [] := by
  rcases keys with _ | ⟨_ | _, keys⟩
  · exact absurd rfl h
  · rw [releaseOldKey]
    split_ifs <;> exact List.cons_ne_nil _ _
  · exact List.cons_ne_nil _ _

lemma keepsModifiers_of_ne_nil {r : KeyState × Faked} (h : r.2.keys ≠ []) : s.KeepsModifiers r :=
  fun hnil => absurd hnil h

lemma fakeKeyRepeat_keepsModifiers (count : ℕ)
    (h : s.serverKeys (slot serverID) = 0 ∨ s.meetsRepeat m group id mask = true) :
    s.KeepsModifiers (s.fakeKeyRepeat m group id mask count serverID).2 := by
  rw [fakeKeyRepeat]
  by_cases hdown : s.serverKeys (slot serverID) = 0
  · rw [if_pos hdown]
    exact fun _ => ⟨rfl, rfl⟩
  rw [if_neg hdown]
  have hrepeat := h.resolve_left hdown
  rw [meetsRepeat] at hrepeat
  rcases hid : changesModifiers id with _ | _
  · rw [hid] at hrepeat
    rcases mapKey_cases hid true with ⟨new, hmap, hactive, hmask⟩ | ⟨item, new, hmap, hkeys, hentry⟩
    · rw [hmap]
      exact fun _ => ⟨hactive, hmask⟩
    · have hbutton : item.button &&& kButtonMask ≠ 0 := by simpa [hentry] using hrepeat
      rw [hmap]
      dsimp only
      rw [if_neg hbutton]
      apply keepsModifiers_of_ne_nil
      split_ifs
      · exact releaseOldKey_ne_nil hkeys
      · exact hkeys
  · rw [hid] at hrepeat
    have hsame := mapKey_nothingChanges hid hrepeat true
    -- the key of such a call has no button, so the call ends before it hands on the keystrokes
    rcases hmap : s.mapKey m id group mask true with ⟨_ | item, new⟩ <;> rw [hmap] at hsame <;> subst hsame
    · exact fun _ => ⟨rfl, rfl⟩
    · dsimp only
      split_ifs <;> exact fun _ => ⟨rfl, rfl⟩

lemma freshKeyDown_keepsModifiers (h : s.meetsFresh m group id mask = true) :
    s.KeepsModifiers (s.freshKeyDown m group id mask serverID) := by
  rw [freshKeyDown]
  by_cases hignored : isIgnoredKey id = true
  · rw [if_pos hignored]
    exact fun _ => ⟨rfl, rfl⟩
  rw [if_neg hignored]
  rcases hid : changesModifiers id with _ | _
  · rcases mapKey_cases hid false with ⟨new, hmap, hactive, hmask⟩ | ⟨item, new, hmap, hkeys, -⟩
    · rw [hmap]
      exact fun _ => ⟨hactive, hmask⟩
    · rw [hmap]
      exact keepsModifiers_of_ne_nil hkeys
  · rw [meetsFresh, hid, Bool.not_true, Bool.false_or, Bool.or_eq_true] at h
    rcases h with h | h
    · have hsame := mapKey_nothingChanges hid h false
      rcases hmap : s.mapKey m id group mask false with ⟨_ | item, new⟩ <;> rw [hmap] at hsame <;> subst hsame
      · exact fun _ => ⟨rfl, rfl⟩
      · dsimp only
        split_ifs <;> exact fun _ => ⟨rfl, rfl⟩
    · obtain ⟨hkey, hkeys⟩ := mapKey_changesWithKeystroke hid h false
      rcases hmap : s.mapKey m id group mask false with ⟨_ | item, new⟩ <;> rw [hmap] at hkey hkeys
      · exact absurd hkey.symm (Option.some_ne_none _)
      · exact keepsModifiers_of_ne_nil hkeys

lemma tracksModifiers_of_meets (s : KeyState) (c : Call) (h : MeetsTracking s c) : TracksModifiers s c := by
  cases c with
  | keyDown m group id mask serverID =>
    change s.KeepsModifiers (s.fakeKeyDown m group id mask serverID)
    rw [MeetsTracking, meetsTracking] at h
    rw [fakeKeyDown]
    by_cases hdown : s.serverKeys (slot serverID) = 0
    · rw [if_pos hdown] at h
      rw [if_neg (not_not.mpr hdown)]
      exact freshKeyDown_keepsModifiers h
    · rw [if_neg hdown] at h
      rw [if_pos hdown]
      exact fakeKeyRepeat_keepsModifiers 1 (.inr h)
  | keyRepeat m group id mask count serverID =>
    rw [MeetsTracking, meetsTracking, Bool.or_eq_true, decide_eq_true_eq] at h
    exact fakeKeyRepeat_keepsModifiers count h
  | _ => trivial

def controlKey : KeyItem := ⟨kKeyControlL, 0, 37, 0, 0, keyModifierControl, false, false, 0⟩

def controlMap : KeyMap := finish ⟨[(0x61, [[[⟨0x61, 0, 38, 0, 0, 0, false, false, 0⟩]]]),
  (kKeyControlL, [[[controlKey]]])], 0, [], []⟩

end KeyState

end InputLeap.Keys
