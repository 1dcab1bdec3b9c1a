import InputLeap.Lib.MultiMap
import Mathlib.Data.BitVec

/-! The keyboard map: which keystrokes synthesize a key, with the modifier keys that have to be pressed
and released around it. -/

namespace InputLeap.Keys

open InputLeap.Lib

abbrev KeyID := UInt32
abbrev KeyButton := BitVec 16
abbrev KeyModifierMask := BitVec 32

def keyModifierShift : KeyModifierMask := 0x0001
def keyModifierControl : KeyModifierMask := 0x0002
def keyModifierAlt : KeyModifierMask := 0x0004
def keyModifierMeta : KeyModifierMask := 0x0008
def keyModifierSuper : KeyModifierMask := 0x0010
def keyModifierAltGr : KeyModifierMask := 0x0020
def keyModifierCapsLock : KeyModifierMask := 0x1000
def keyModifierNumLock : KeyModifierMask := 0x2000
def keyModifierScrollLock : KeyModifierMask := 0x4000

def kKeyModifierNumBits : ℕ := 16

def kKeyNone : KeyID := 0x0000
def kKeyScrollLock : KeyID := 0xEF14
def kKeyAltGr : KeyID := 0xEF7E
def kKeyNumLock : KeyID := 0xEF7F
def kKeyShiftL : KeyID := 0xEFE1
def kKeyShiftR : KeyID := 0xEFE2
def kKeyControlL : KeyID := 0xEFE3
def kKeyControlR : KeyID := 0xEFE4
def kKeyCapsLock : KeyID := 0xEFE5
def kKeyMetaL : KeyID := 0xEFE7
def kKeyMetaR : KeyID := 0xEFE8
def kKeyAltL : KeyID := 0xEFE9
def kKeyAltR : KeyID := 0xEFEA
def kKeySuperL : KeyID := 0xEFEB
def kKeySuperR : KeyID := 0xEFEC
def kKeySetModifiers : KeyID := 0xEE06
def kKeyClearModifiers : KeyID := 0xEE07
def kKeyNextGroup : KeyID := 0xEE08
def kKeyPrevGroup : KeyID := 0xEE0A

structure KeyItem where
  id : KeyID
  group : ℕ
  button : KeyButton
  required : KeyModifierMask
  sensitive : KeyModifierMask
  generates : KeyModifierMask
  dead : Bool
  lock : Bool
  client : UInt32
deriving DecidableEq

inductive Keystroke
  | button (button : KeyButton) (press : Bool) (isRepeat : Bool) (client : UInt32)
  | group (group : ℤ) (absolute : Bool) (restore : Bool)
deriving DecidableEq

abbrev ModifierToKeys := List (KeyModifierMask × KeyItem)

abbrev KeyItemList := List KeyItem
abbrev KeyEntryList := List KeyItemList
abbrev KeyGroupTable := List KeyEntryList

structure KeyMap where
  keyIDMap : List (KeyID × KeyGroupTable)
  numGroups : ℕ
  /-- The keys for bit `b` in group `g` are at `g * kKeyModifierNumBits + b`. -/
  modifierKeys : List (List KeyItem)
  halfDuplex : List KeyButton

structure Synthesis where
  activeModifiers : ModifierToKeys
  currentState : KeyModifierMask
  keystrokes : List Keystroke
deriving DecidableEq

inductive EKeystroke
  | press
  | release
  | autorepeat
  | click
  | modify
  | unmodify
deriving DecidableEq

namespace Synthesis

def push (s : Synthesis) (k : Keystroke) : Synthesis := { s with keystrokes := s.keystrokes ++ [k] }

def pushAll (s : Synthesis) (ks : List Keystroke) : Synthesis := { s with keystrokes := s.keystrokes ++ ks }

def activate (s : Synthesis) (item : KeyItem) : Synthesis :=
  { s with
    activeModifiers := MultiMap.insert item.generates item s.activeModifiers
    currentState := s.currentState ||| item.generates }

def deactivate (s : Synthesis) (item : KeyItem) : Synthesis :=
  { s with
    activeModifiers := MultiMap.erase item.generates s.activeModifiers
    currentState := s.currentState &&& ~~~item.generates }

def removeKey (s : Synthesis) (item : KeyItem) : Synthesis :=
  let active := MultiMap.eraseFirst item.generates (fun i => decide (i.button = item.button)) s.activeModifiers
  { s with
    activeModifiers := active
    currentState :=
      if MultiMap.count item.generates active = 0 then s.currentState &&& ~~~item.generates else s.currentState }

end Synthesis

namespace KeyMap

def pressKey (item : KeyItem) : Keystroke := .button item.button true false item.client
def releaseKey (item : KeyItem) : Keystroke := .button item.button false false item.client

scoped instance lawfulBEqButton : LawfulBEq KeyButton := inferInstance

def addKeystrokes (m : KeyMap) (type : EKeystroke) (item : KeyItem) (s : Synthesis) : Synthesis :=
  match type with
  | .press =>
    let s := s.push (pressKey item)
    if item.generates ≠ 0 then
      if !item.lock || decide (s.currentState &&& item.generates = 0) then s.activate item else s.deactivate item
    else s
  | .release =>
    let s := s.push (releaseKey item)
    if item.generates ≠ 0 ∧ item.lock = false then s.removeKey item else s
  | .autorepeat =>
    s.pushAll [.button item.button false true item.client, .button item.button true true item.client]
  | .click => s.pushAll [pressKey item, releaseKey item]
  | .modify =>
    let s :=
      if item.lock then
        if item.button ∈ m.halfDuplex then s.push (pressKey item)
        else s.pushAll [pressKey item, releaseKey item]
      else s.push (pressKey item)
    s.activate item
  | .unmodify =>
    let s :=
      if item.lock then
        if item.button ∈ m.halfDuplex then s.push (releaseKey item)
        else s.pushAll [pressKey item, releaseKey item]
      else s.pushAll ((MultiMap.equalRange item.generates s.activeModifiers).map fun e => releaseKey e.2)
    s.deactivate item

def keyForModifier (m : KeyMap) (button : KeyButton) (group modifierBit : ℕ) : Option KeyItem :=
  (m.modifierKeys.getD (group * kKeyModifierNumBits + modifierBit) []).find? fun item =>
    decide (item.button ≠ button)

def flipMask (currentState requiredState sensitiveMask notRequiredMask : KeyModifierMask) : KeyModifierMask :=
  (currentState ^^^ requiredState) &&& sensitiveMask &&& ~~~notRequiredMask

/-- Changes one modifier. Where its key is sensitive to other modifiers, `adjust` brings these into the state that
they need for it to be pressed. The result says whether the loop goes on. -/
def changeModifier (m : KeyMap) (button : KeyButton) (group : ℕ) (notRequiredMask : KeyModifierMask) (bit : ℕ)
    (adjust : KeyModifierMask → KeyModifierMask → Synthesis → Bool × Synthesis) (active : Bool) (s : Synthesis) :
    Bool × Synthesis :=
  match m.keyForModifier button group bit with
  | none => (notRequiredMask.getLsbD bit, s)
  | some item =>
    let mask : KeyModifierMask := BitVec.twoPow 32 bit
    let sensitive := item.sensitive &&& ~~~mask
    if sensitive ≠ 0 ∧ mask < sensitive then (false, s)
    else
      let adjusted :=
        if sensitive ≠ 0 ∧ active = true then
          adjust (flipMask s.currentState item.required sensitive notRequiredMask) item.required s
        else (true, s)
      if adjusted.1 = false then adjusted
      else if adjusted.2.currentState &&& sensitive ≠ item.required &&& sensitive then (false, adjusted.2)
      else (true, m.addKeystrokes (if active then .modify else .unmodify) item adjusted.2)

/-- The loop of `keysForModifierState` over the bits below `bits`, from the highest. A key is only followed if the
modifiers it is sensitive to have lower bits, so the loop that adjusts these starts below the bit. -/
def modifierLoop (m : KeyMap) (button : KeyButton) (group : ℕ) (notRequiredMask : KeyModifierMask) :
    ℕ → KeyModifierMask → KeyModifierMask → Synthesis → Bool × Synthesis
  | 0, _, _, s => (true, s)
  | bit + 1, flip, requiredState, s =>
    if flip.getLsbD bit then
      let changed := m.changeModifier button group notRequiredMask bit
        (modifierLoop m button group notRequiredMask bit) (requiredState.getLsbD bit) s
      if changed.1 then modifierLoop m button group notRequiredMask bit flip requiredState changed.2 else changed
    else modifierLoop m button group notRequiredMask bit flip requiredState s

def keysForModifierState (m : KeyMap) (button : KeyButton) (group : ℕ)
    (requiredState sensitiveMask notRequiredMask : KeyModifierMask) (s : Synthesis) : Bool × Synthesis :=
  let flip := flipMask s.currentState requiredState sensitiveMask notRequiredMask
  if flip = 0 then (true, s)
  else m.modifierLoop button group notRequiredMask kKeyModifierNumBits flip requiredState s

def keyModifierNotRequired : KeyModifierMask := keyModifierAltGr ||| keyModifierNumLock ||| keyModifierScrollLock

/-- Adjusts the group and the modifiers for a key and presses it, or presses and releases it if it is dead.
Where this fails the caller drops what it has made so far. -/
def keysForKeyItem (m : KeyMap) (item : KeyItem) (desiredState overrideModifiers : KeyModifierMask)
    (isAutoRepeat : Bool) (group : ℕ) (s : Synthesis) : Option (ℕ × Synthesis) :=
  let s := if group ≠ item.group then s.push (.group item.group true false) else s
  let sensitive := if item.dead then item.sensitive else item.sensitive &&& ~~~overrideModifiers
  let required := m.keysForModifierState item.button item.group item.required sensitive 0 s
  if required.1 = false then none
  else if item.dead then some (item.group, m.addKeystrokes .click item required.2)
  else
    let desired := m.keysForModifierState item.button item.group desiredState (~~~(sensitive ||| item.generates))
      keyModifierNotRequired required.2
    if desired.1 = false then none
    else some (item.group, m.addKeystrokes (if isAutoRepeat then .autorepeat else .press) item desired.2)

def keysForKeyItems (m : KeyMap) (desiredState overrideModifiers : KeyModifierMask) (isAutoRepeat : Bool) :
    KeyItemList → ℕ → Synthesis → Option (ℕ × Synthesis)
  | [], group, s => some (group, s)
  | item :: items, group, s =>
    (m.keysForKeyItem item desiredState overrideModifiers isAutoRepeat group s).bind fun (group, s) =>
      keysForKeyItems m desiredState overrideModifiers isAutoRepeat items group s

def hasButton (modifiers : ModifierToKeys) (button : KeyButton) : Bool :=
  modifiers.any fun e => decide (e.2.button = button)

def releaseUnwanted (m : KeyMap) (item : KeyItem) (desired : ModifierToKeys) (s : Synthesis)
    (e : KeyModifierMask × KeyItem) : Synthesis :=
  if e.2.button ≠ item.button ∧ hasButton desired e.2.button = false then
    m.addKeystrokes (if e.2.lock then .unmodify else .release) e.2 s
  else s

def pressWanted (m : KeyMap) (item : KeyItem) (old : ModifierToKeys) (s : Synthesis)
    (e : KeyModifierMask × KeyItem) : Synthesis :=
  if e.2.button ≠ item.button ∧ hasButton old e.2.button = false then
    m.addKeystrokes (if e.2.lock then .modify else .press) e.2 s
  else s

def keysToRestoreModifiers (m : KeyMap) (item : KeyItem) (desired : ModifierToKeys) (s : Synthesis) : Synthesis :=
  let old := s.activeModifiers
  desired.foldl (m.pressWanted item old) (old.foldl (m.releaseUnwanted item desired) s)

def getEffectiveGroup (m : KeyMap) (group offset : ℕ) : ℕ := (group + offset + m.numGroups) % m.numGroups

def getCommandModifiers : KeyModifierMask :=
  keyModifierControl ||| keyModifierAlt ||| keyModifierAltGr ||| keyModifierMeta ||| keyModifierSuper

def isCommand (mask : KeyModifierMask) : Bool := decide (mask &&& getCommandModifiers ≠ 0)

def getNumModifiers (state : KeyModifierMask) : ℕ := (List.range 32).countP state.getLsbD

/-- An entry is compared by the last of its items. -/
def findBestKey (entryList : KeyEntryList) (desiredState : KeyModifierMask) : Option KeyItemList :=
  let exactMatch := entryList.find? fun items => items.getLast?.any fun item =>
    decide (item.required &&& desiredState = item.required ∧
      item.required &&& desiredState = item.sensitive &&& desiredState)
  let changes (item : KeyItem) := getNumModifiers ((item.required ^^^ desiredState) &&& item.sensitive)
  exactMatch.or <| (entryList.foldl (fun (best : ℕ × Option KeyItemList) items =>
    match items.getLast? with
    | none => best
    | some item => if changes item < best.1 then (changes item, some items) else best) (32, none)).2

def findKeyItems (m : KeyMap) (id : KeyID) (group : ℕ) (pick : KeyEntryList → Option KeyItemList) :
    Option KeyItemList :=
  (m.keyIDMap.lookup id).bind fun keyGroupTable =>
    (List.range m.numGroups).findSome? fun groupOffset =>
      pick (keyGroupTable.getD (m.getEffectiveGroup group groupOffset) [])

/-- The first entry of one key whose required modifiers, except shift, are in the desired mask. -/
def findCommandKey (entryList : KeyEntryList) (desiredMask : KeyModifierMask) : Option KeyItemList :=
  entryList.find? fun items =>
    match items with
    | [item] =>
      let desiredShiftMask := keyModifierShift &&& desiredMask
      let requiredIgnoreShiftMask := item.required &&& ~~~keyModifierShift
      decide (item.required &&& desiredShiftMask = item.sensitive &&& desiredShiftMask ∧
        requiredIgnoreShiftMask &&& desiredMask = requiredIgnoreShiftMask)
    | _ => false

/-- What a key was mapped to: the key, and the modifiers and keystrokes after it. Without a key the modifiers are
left as they were and the keystrokes are dropped. -/
def mapItems (m : KeyMap) (items : Option KeyItemList) (group : ℕ) (desiredMask overrideModifiers : KeyModifierMask)
    (isAutoRepeat : Bool) (s : Synthesis) : Option KeyItem × Synthesis :=
  match items with
  | none => (none, s)
  | some items =>
    match items.getLast? with
    | none => (none, s)
    | some keyItem =>
      match m.keysForKeyItems desiredMask overrideModifiers isAutoRepeat items group s with
      | none => (none, { s with keystrokes := [] })
      | some (newGroup, new) =>
        let new := m.keysToRestoreModifiers keyItem s.activeModifiers new
        (some keyItem, if newGroup ≠ group then new.push (.group group true true) else new)

def mapCommandKey (m : KeyMap) (id : KeyID) (group : ℕ) (desiredMask : KeyModifierMask) (isAutoRepeat : Bool)
    (s : Synthesis) : Option KeyItem × Synthesis :=
  m.mapItems (m.findKeyItems id group fun entries => findCommandKey entries desiredMask) group
    (desiredMask &&& ~~~keyModifierCapsLock ||| s.currentState &&& keyModifierCapsLock) 0xffff isAutoRepeat s

def mapCharacterKey (m : KeyMap) (id : KeyID) (group : ℕ) (desiredMask : KeyModifierMask) (isAutoRepeat : Bool)
    (s : Synthesis) : Option KeyItem × Synthesis :=
  m.mapItems (m.findKeyItems id group fun entries => findBestKey entries desiredMask) group desiredMask 0
    isAutoRepeat s

def mapModifierKey (m : KeyMap) (id : KeyID) (group : ℕ) (desiredMask : KeyModifierMask) (isAutoRepeat : Bool)
    (s : Synthesis) : Option KeyItem × Synthesis :=
  m.mapCharacterKey id group desiredMask isAutoRepeat s

def modifierKeyItem : KeyItem := ⟨kKeyNone, 0, 0, 0, 0, 0, false, false, 0⟩

def isModifierID (id : KeyID) : Bool :=
  id ∈ [kKeyShiftL, kKeyShiftR, kKeyControlL, kKeyControlR, kKeyAltL, kKeyAltR, kKeyMetaL, kKeyMetaR,
    kKeySuperL, kKeySuperR, kKeyAltGr, kKeyCapsLock, kKeyNumLock, kKeyScrollLock]

def mapKey (m : KeyMap) (id : KeyID) (group : ℕ) (desiredMask : KeyModifierMask) (isAutoRepeat : Bool)
    (s : Synthesis) : Option KeyItem × Synthesis :=
  if id = kKeyNextGroup then (none, s.push (.group 1 false false))
  else if id = kKeyPrevGroup then (none, s.push (.group (-1) false false))
  else if isModifierID id then m.mapModifierKey id group desiredMask isAutoRepeat s
  else if id = kKeySetModifiers then
    match m.keysForModifierState 0 group desiredMask desiredMask 0 s with
    | (false, s) => (none, s)
    | (true, s) => (some modifierKeyItem, s)
  else if id = kKeyClearModifiers then
    match m.keysForModifierState 0 group (s.currentState &&& ~~~desiredMask) desiredMask 0 s with
    | (false, s) => (none, s)
    | (true, s) => (some modifierKeyItem, s)
  else if isCommand desiredMask then m.mapCommandKey id group desiredMask isAutoRepeat s
  else m.mapCharacterKey id group desiredMask isAutoRepeat s

section SetModifierKeys

/-- The keys that `setModifierKeys` enters for a bit of the modifiers and a group. -/
def keysGenerating (keyIDMap : List (KeyID × KeyGroupTable)) (group bit : ℕ) : List KeyItem :=
  keyIDMap.flatMap fun e => (e.2.getD group []).filterMap fun items =>
    match items with
    | [item] => if item.generates.getLsbD bit then some item else none
    | _ => none

def setModifierKeys (keyIDMap : List (KeyID × KeyGroupTable)) (numGroups : ℕ) : List (List KeyItem) :=
  (List.range (numGroups * kKeyModifierNumBits)).map fun i =>
    keysGenerating keyIDMap (i / kKeyModifierNumBits) (i % kKeyModifierNumBits)

def findNumGroups (keyIDMap : List (KeyID × KeyGroupTable)) : ℕ :=
  keyIDMap.foldl (fun n e => max n e.2.length) 0

/-- Every key gets the same number of groups, and the keys for each modifier are collected. -/
def finish (m : KeyMap) : KeyMap :=
  let numGroups := findNumGroups m.keyIDMap
  let keyIDMap := m.keyIDMap.map fun e => (e.1, e.2 ++ List.replicate (numGroups - e.2.length) [])
  { m with keyIDMap := keyIDMap, numGroups := numGroups, modifierKeys := setModifierKeys keyIDMap numGroups }

end SetModifierKeys

end KeyMap

end InputLeap.Keys
