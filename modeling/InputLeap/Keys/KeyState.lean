import InputLeap.Keys.KeyMap
import Mathlib.Data.Nat.Bitwise
import Mathlib.Logic.Function.Basic

/-! The state of a client's keyboard, and the keys that the server presses, repeats and releases on it. -/

namespace InputLeap.Keys

open InputLeap.Lib

def kNumButtons : ℕ := 0x200
def kButtonMask : KeyButton := 0x1ff

lemma and_kButtonMask_toNat (b : KeyButton) : (b &&& kButtonMask).toNat = b.toNat % kNumButtons := by
  rw [BitVec.toNat_and]
  exact Nat.and_two_pow_sub_one_eq_mod b.toNat 9

/-- An index into the tables, which have `kNumButtons` entries. -/
abbrev Slot := Fin kNumButtons

def slot (b : KeyButton) : Slot := ⟨(b &&& kButtonMask).toNat, by
  rw [and_kButtonMask_toNat]
  exact Nat.mod_lt _ (by decide)⟩

def kKeyAudioMute : KeyID := 0xE0AD
def kKeyAudioDown : KeyID := 0xE0AE
def kKeyAudioUp : KeyID := 0xE0AF
def kKeyAudioNext : KeyID := 0xE0B0
def kKeyAudioPrev : KeyID := 0xE0B1
def kKeyAudioPlay : KeyID := 0xE0B3
def kKeyBrightnessDown : KeyID := 0xE0B8
def kKeyBrightnessUp : KeyID := 0xE0B9

def isMediaKey (id : KeyID) : Bool :=
  id ∈ [kKeyAudioDown, kKeyAudioUp, kKeyAudioMute, kKeyAudioPlay, kKeyAudioPrev, kKeyAudioNext,
    kKeyBrightnessDown, kKeyBrightnessUp]

def isIgnoredKey (id : KeyID) : Bool := id ∈ [kKeyCapsLock, kKeyNumLock, kKeyScrollLock]

structure KeyState where
  mask : KeyModifierMask
  activeModifiers : ModifierToKeys
  keys : KeyButton → ℤ
  syntheticKeys : KeyButton → ℤ
  keyClientData : KeyButton → UInt32
  serverKeys : Slot → KeyButton

/-- What a call does besides changing the state: the keystrokes that it hands to `fakeKeys` and how often, and
the key that it gives to `fakeMediaKey`. -/
structure Faked where
  keys : List Keystroke := []
  count : ℕ := 0
  mediaKey : Option KeyID := none
deriving DecidableEq

namespace KeyState

def init : KeyState := ⟨0, [], fun _ => 0, fun _ => 0, fun _ => 0, fun _ => 0⟩

/-- Makes the key state follow the modifiers, except for one button. -/
def updateModifierKeyState (s : KeyState) (button : KeyButton) (old new : ModifierToKeys) : KeyState :=
  let released := old.filter fun e => !KeyMap.hasButton new e.2.button && decide (e.2.button ≠ button)
  let pressed := new.filter fun e => !KeyMap.hasButton old e.2.button && decide (e.2.button ≠ button)
  let count (keys : KeyButton → ℤ) : KeyButton → ℤ := fun b =>
    if KeyMap.hasButton pressed b then 1 else if KeyMap.hasButton released b then 0 else keys b
  { s with
    keys := count s.keys
    syntheticKeys := count s.syntheticKeys
    keyClientData := fun b =>
      match pressed.find? fun e => decide (e.2.button = b) with
      | some e => e.2.client
      | none => s.keyClientData b }

def noteKeyDown (s : KeyState) (serverID localID : KeyButton) (client : UInt32) : KeyState :=
  { s with
    keys := Function.update s.keys localID (s.keys localID + 1)
    syntheticKeys := Function.update s.syntheticKeys localID (s.syntheticKeys localID + 1)
    keyClientData := Function.update s.keyClientData localID client
    serverKeys := Function.update s.serverKeys (slot serverID) localID }

def noteKeyUp (s : KeyState) (localID : KeyButton) : KeyState :=
  { s with
    keys := Function.update s.keys localID (s.keys localID - 1)
    syntheticKeys := Function.update s.syntheticKeys localID (s.syntheticKeys localID - 1) }

def mapKey (s : KeyState) (m : KeyMap) (id : KeyID) (group : ℕ) (mask : KeyModifierMask) (isAutoRepeat : Bool) :
    Option KeyItem × Synthesis :=
  m.mapKey id group mask isAutoRepeat ⟨s.activeModifiers, s.mask, []⟩

/-- `mapKey` works on the modifiers of the state itself. -/
def withModifiers (s : KeyState) (synthesis : Synthesis) : KeyState :=
  { s with activeModifiers := synthesis.activeModifiers, mask := synthesis.currentState }

/-- The first keystroke of the new button goes to the old one, whose release it is. -/
def releaseOldKey (localID oldLocalID : KeyButton) : List Keystroke → List Keystroke
  | [] => []
  | .button b press isRepeat client :: keys =>
    if b = localID then .button oldLocalID press isRepeat client :: keys
    else .button b press isRepeat client :: releaseOldKey localID oldLocalID keys
  | k :: keys => k :: releaseOldKey localID oldLocalID keys

def fakeKeyRepeat (s : KeyState) (m : KeyMap) (group : ℕ) (id : KeyID) (mask : KeyModifierMask) (count : ℕ)
    (serverID : KeyButton) : Bool × KeyState × Faked :=
  let oldLocalID := s.serverKeys (slot serverID)
  if oldLocalID = 0 then (false, s, {})
  else
    match s.mapKey m id group mask true with
    | (none, new) => (false, s.withModifiers new, {})
    | (some keyItem, new) =>
      let t := s.withModifiers new
      let localID := keyItem.button &&& kButtonMask
      if localID = 0 then (false, t, {})
      else if localID ≠ oldLocalID then
        let t := (t.noteKeyUp oldLocalID).updateModifierKeyState localID s.activeModifiers t.activeModifiers
        (true, t.noteKeyDown serverID localID keyItem.client,
          { keys := releaseOldKey localID oldLocalID new.keystrokes, count := count })
      else (true, t, { keys := new.keystrokes, count := count })

/-- `fakeKeyDown` for a server key that is not down yet. -/
def freshKeyDown (s : KeyState) (m : KeyMap) (group : ℕ) (id : KeyID) (mask : KeyModifierMask)
    (serverID : KeyButton) : KeyState × Faked :=
  if isIgnoredKey id then (s, {})
  else
    match s.mapKey m id group mask false with
    | (none, new) => (s.withModifiers new, if isMediaKey id then { mediaKey := some id } else {})
    | (some keyItem, new) =>
      let localID := keyItem.button &&& kButtonMask
      let t := (s.withModifiers new).updateModifierKeyState localID s.activeModifiers new.activeModifiers
      (if localID ≠ 0 then t.noteKeyDown serverID localID keyItem.client else t,
        { keys := new.keystrokes, count := 1 })

def fakeKeyDown (s : KeyState) (m : KeyMap) (group : ℕ) (id : KeyID) (mask : KeyModifierMask)
    (serverID : KeyButton) : KeyState × Faked :=
  if s.serverKeys (slot serverID) ≠ 0 then (s.fakeKeyRepeat m group id mask 1 serverID).2
  else s.freshKeyDown m group id mask serverID

def dropModifierKey (localID : KeyButton) : ModifierToKeys → ModifierToKeys → KeyModifierMask →
    ModifierToKeys × KeyModifierMask
  | [], kept, mask => (kept, mask)
  | e :: rest, kept, mask =>
    if e.2.button = localID ∧ e.2.lock = false then
      dropModifierKey localID rest kept
        (if MultiMap.count e.1 (kept ++ rest) = 0 then mask &&& ~~~e.1 else mask)
    else dropModifierKey localID rest (kept ++ [e]) mask

/-- The table of server keys is read at a masked index and written at the index as it came. A write outside of the
table is undefined: there is no state after it. -/
def fakeKeyUp (s : KeyState) (serverID : KeyButton) : Option (Bool × KeyState × Faked) :=
  let localID := s.serverKeys (slot serverID)
  if localID = 0 then some (false, s, {})
  else if h : serverID.toNat < kNumButtons then
    let t := s.noteKeyUp localID
    let (active, mask) := dropModifierKey localID s.activeModifiers [] s.mask
    some (true,
      { t with
        serverKeys := Function.update s.serverKeys ⟨serverID.toNat, h⟩ 0
        activeModifiers := active
        mask := mask },
      { keys := [.button localID false false (s.keyClientData localID)], count := 1 })
  else none

def onKey (s : KeyState) (button : KeyButton) (down : Bool) (newState : KeyModifierMask) : KeyState :=
  let s := { s with mask := newState }
  let button := button &&& kButtonMask
  if button = 0 then s
  else
    { s with
      keys := Function.update s.keys button (if down then 1 else 0)
      syntheticKeys := Function.update s.syntheticKeys button (if down then 1 else 0) }

/-- Releases what has been synthesized and reads the modifiers from the system. -/
def fakeAllKeysUp (s : KeyState) (polled : KeyModifierMask) : KeyState × Faked :=
  let down := ((List.range kNumButtons).map (BitVec.ofNat 16)).filter fun b => decide (0 < s.syntheticKeys b)
  ({ s with
      keys := fun b => if b ∈ down then 0 else s.keys b
      syntheticKeys := fun b => if b ∈ down then 0 else s.syntheticKeys b
      serverKeys := fun _ => 0
      activeModifiers := []
      mask := polled },
    { keys := down.map fun b => .button b false false (s.keyClientData b), count := 1 })

/-- Reads the state of the keyboard from the system: the keys that are down, the modifiers and the group. -/
def updateKeyState (m : KeyMap) (keysDown : List KeyButton) (polled : KeyModifierMask) (group : ℕ) : KeyState :=
  { init with
    keys := fun b => if b ∈ keysDown then 1 else 0
    mask := polled
    activeModifiers :=
      (m.keyIDMap.flatMap fun e => (e.2.getD group []).flatten).foldl
        (fun active item =>
          if item.generates &&& polled ≠ 0 then MultiMap.insert item.generates item active else active) [] }

/-- What may happen to the key state. The keyboard map may change at any time. -/
inductive Call
  | keyDown (m : KeyMap) (group : ℕ) (id : KeyID) (mask : KeyModifierMask) (serverID : KeyButton)
  | keyRepeat (m : KeyMap) (group : ℕ) (id : KeyID) (mask : KeyModifierMask) (count : ℕ) (serverID : KeyButton)
  | keyUp (serverID : KeyButton)
  | key (button : KeyButton) (down : Bool) (newState : KeyModifierMask)
  | allKeysUp (polled : KeyModifierMask)
  | update (m : KeyMap) (keysDown : List KeyButton) (polled : KeyModifierMask) (group : ℕ)

def next (s : KeyState) : Call → Option KeyState
  | .keyDown m group id mask serverID => some (s.fakeKeyDown m group id mask serverID).1
  | .keyRepeat m group id mask count serverID => some (s.fakeKeyRepeat m group id mask count serverID).2.1
  | .keyUp serverID => (s.fakeKeyUp serverID).map fun r => r.2.1
  | .key button down newState => some (s.onKey button down newState)
  | .allKeysUp polled => some (s.fakeAllKeysUp polled).1
  | .update m keysDown polled group => some (updateKeyState m keysDown polled group)

end KeyState

end InputLeap.Keys
