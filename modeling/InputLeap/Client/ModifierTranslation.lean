import InputLeap.Keys.KeyMap
import InputLeap.Server.ConfigRead

/-! Modifiers that a client takes for others. The options of a server name, for each modifier, the one
that stands in for it, and the keys of a modifier and its bit in a mask are translated apart. -/

namespace InputLeap.Client

open InputLeap.Keys (keyModifierShift keyModifierControl keyModifierAlt keyModifierMeta keyModifierSuper
  keyModifierAltGr kKeyNone kKeyAltGr kKeyShiftL kKeyShiftR kKeyControlL kKeyControlR kKeyMetaL kKeyMetaR kKeyAltL
  kKeyAltR kKeySuperL kKeySuperR)

inductive KeyModifierID
  | null
  | shift
  | control
  | alt
  | metaKey
  | super
  | altGr
  deriving DecidableEq

namespace KeyModifierID

def ofNat? : ℕ → Option KeyModifierID
  | 0 => some null
  | 1 => some shift
  | 2 => some control
  | 3 => some alt
  | 4 => some metaKey
  | 5 => some super
  | 6 => some altGr
  | _ => none

/-- `s_translationTable`: the keys of a modifier on the left and on the right. -/
def keys : KeyModifierID → Keys.KeyID × Keys.KeyID
  | null => (kKeyNone, kKeyNone)
  | shift => (kKeyShiftL, kKeyShiftR)
  | control => (kKeyControlL, kKeyControlR)
  | alt => (kKeyAltL, kKeyAltR)
  | metaKey => (kKeyMetaL, kKeyMetaR)
  | super => (kKeySuperL, kKeySuperR)
  | altGr => (kKeyAltGr, kKeyAltGr)

/-- `s_masks`. -/
def mask : KeyModifierID → Keys.KeyModifierMask
  | null => 0#32
  | shift => keyModifierShift
  | control => keyModifierControl
  | alt => keyModifierAlt
  | metaKey => keyModifierMeta
  | super => keyModifierSuper
  | altGr => keyModifierAltGr

end KeyModifierID

/-- The keys of the modifiers, and whether it is the key on the right. There is one key for AltGr. -/
def modifierKeys : List (Keys.KeyID × KeyModifierID × Bool) :=
  [(kKeyShiftL, .shift, false),
   (kKeyShiftR, .shift, true),
   (kKeyControlL, .control, false),
   (kKeyControlR, .control, true),
   (kKeyAltL, .alt, false),
   (kKeyAltR, .alt, true),
   (kKeyAltGr, .altGr, true),
   (kKeyMetaL, .metaKey, false),
   (kKeyMetaR, .metaKey, true),
   (kKeySuperL, .super, false),
   (kKeySuperR, .super, true)]

def keyModifier? (id : Keys.KeyID) : Option (KeyModifierID × Bool) := modifierKeys.lookup id

abbrev ModifierTable := KeyModifierID → KeyModifierID

namespace ModifierTable

def initial : ModifierTable := id

def translateKey (t : ModifierTable) (id : Keys.KeyID) : Keys.KeyID :=
  match keyModifier? id with
  | some (id2, side) => if side then (t id2).keys.2 else (t id2).keys.1
  | none => id

def translated : List KeyModifierID := [.shift, .control, .alt, .altGr, .metaKey, .super]

def translatedMask : Keys.KeyModifierMask :=
  keyModifierShift ||| keyModifierControl ||| keyModifierAlt ||| keyModifierMeta ||| keyModifierSuper |||
    keyModifierAltGr

def translateModifierMask (t : ModifierTable) (mask : Keys.KeyModifierMask) : Keys.KeyModifierMask :=
  translated.foldl (fun newMask id => if mask &&& id.mask ≠ 0#32 then newMask ||| (t id).mask else newMask)
    (mask &&& ~~~translatedMask)

def option? (id : OptionID) : Option KeyModifierID :=
  if id = kOptionModifierMapForShift then some .shift
  else if id = kOptionModifierMapForControl then some .control
  else if id = kOptionModifierMapForAlt then some .alt
  else if id = kOptionModifierMapForAltGr then some .altGr
  else if id = kOptionModifierMapForMeta then some .metaKey
  else if id = kOptionModifierMapForSuper then some .super
  else none

def setOption (t : ModifierTable) (id : OptionID) (value : ℕ) : ModifierTable :=
  match option? id, KeyModifierID.ofNat? value with
  | some id, some mapped => Function.update t id mapped
  | _, _ => t

def setOptions (t : ModifierTable) : List ℕ → ModifierTable
  | id :: value :: options => (t.setOption id value).setOptions options
  | _ => t

section Translation

def keyMask (id : Keys.KeyID) : Keys.KeyModifierMask :=
  match keyModifier? id with
  | some (id2, _) => id2.mask
  | none => 0#32

def heldMask (held : List Keys.KeyID) : Keys.KeyModifierMask := held.foldr (fun id mask => keyMask id ||| mask) 0#32

lemma keyMask_keys (id : KeyModifierID) (side : Bool) : keyMask (if side then id.keys.2 else id.keys.1) = id.mask := by
  cases id <;> cases side <;> decide

lemma ne_null_of_keyModifier? {id : Keys.KeyID} {id2 : KeyModifierID} {side : Bool}
    (h : keyModifier? id = some (id2, side)) : id2 ≠ .null := by
  have hmem : (id, id2, side) ∈ modifierKeys := by
    obtain ⟨front, back, heq, -⟩ := List.lookup_eq_some_iff.mp h
    exact heq ▸ List.mem_append_right _ List.mem_cons_self
  have hall : ∀ row ∈ modifierKeys, row.2.1 ≠ .null := by decide
  exact hall _ hmem

variable (t : ModifierTable)

def translation (mask : Keys.KeyModifierMask) (id : KeyModifierID) : Keys.KeyModifierMask :=
  if mask &&& id.mask ≠ 0#32 then (t id).mask else 0#32

lemma translation_or (a b : Keys.KeyModifierMask) (id : KeyModifierID) :
    t.translation (a ||| b) id = t.translation a id ||| t.translation b id := by
  have hor : (a ||| b) &&& id.mask ≠ 0#32 ↔ a &&& id.mask ≠ 0#32 ∨ b &&& id.mask ≠ 0#32 := by
    rw [BitVec.and_comm, BitVec.and_or_distrib_left, BitVec.and_comm _ a, BitVec.and_comm _ b, Ne, BitVec.or_eq_zero_iff,
      not_and_or]
  by_cases ha : a &&& id.mask = 0#32 <;> by_cases hb : b &&& id.mask = 0#32 <;> simp [translation, hor, ha, hb]

def translations (mask : Keys.KeyModifierMask) : List KeyModifierID → Keys.KeyModifierMask
  | [] => 0#32
  | id :: ids => t.translation mask id ||| translations mask ids

lemma foldl_translation (ids : List KeyModifierID) (mask newMask : Keys.KeyModifierMask) :
    ids.foldl (fun newMask id => if mask &&& id.mask ≠ 0#32 then newMask ||| (t id).mask else newMask) newMask =
      newMask ||| t.translations mask ids := by
  induction ids generalizing newMask with
  | nil => simp [translations]
  | cons id ids ih =>
    rw [List.foldl_cons, translations, ih, ← BitVec.or_assoc]
    congr 1
    rw [translation]
    split_ifs
    · rfl
    · rw [BitVec.or_zero]

lemma translations_or (ids : List KeyModifierID) (a b : Keys.KeyModifierMask) :
    t.translations (a ||| b) ids = t.translations a ids ||| t.translations b ids := by
  induction ids with
  | nil => simp [translations]
  | cons id ids ih =>
    rw [translations, translations, translations, ih, translation_or]
    ac_rfl

lemma translateModifierMask_eq (mask : Keys.KeyModifierMask) :
    t.translateModifierMask mask = mask &&& ~~~translatedMask ||| t.translations mask translated :=
  t.foldl_translation translated mask _

lemma translateModifierMask_or (a b : Keys.KeyModifierMask) :
    t.translateModifierMask (a ||| b) = t.translateModifierMask a ||| t.translateModifierMask b := by
  have hrest : (a ||| b) &&& ~~~translatedMask = a &&& ~~~translatedMask ||| b &&& ~~~translatedMask := by
    rw [BitVec.and_comm, BitVec.and_or_distrib_left, BitVec.and_comm _ a, BitVec.and_comm _ b]
  rw [translateModifierMask_eq, translateModifierMask_eq, translateModifierMask_eq, translations_or, hrest]
  ac_rfl

lemma translateModifierMask_zero : t.translateModifierMask 0#32 = 0#32 := by
  simp [translateModifierMask, translated]

lemma translations_mask {id : KeyModifierID} (h : id ≠ .null) (ids : List KeyModifierID) :
    t.translations id.mask ids = if id ∈ ids then (t id).mask else 0#32 := by
  have hbits : ∀ other : KeyModifierID, id.mask &&& other.mask ≠ 0#32 ↔ other = id := by
    intro other
    cases id <;> cases other <;> first | exact absurd rfl h | decide
  induction ids with
  | nil => simp [translations]
  | cons other ids ih =>
    rw [translations, translation, ih]
    by_cases heq : other = id
    · subst heq
      rw [if_pos ((hbits other).mpr rfl), if_pos List.mem_cons_self]
      split_ifs <;> simp
    · rw [if_neg fun hne => heq ((hbits other).mp hne), BitVec.zero_or]
      simp [Ne.symm heq]

lemma translateModifierMask_mask {id : KeyModifierID} (h : id ≠ .null) : t.translateModifierMask id.mask = (t id).mask := by
  have hrest : id.mask &&& ~~~translatedMask = 0#32 := by
    cases id <;> decide
  have hmem : id ∈ translated := by
    cases id <;> first | exact absurd rfl h | decide
  rw [translateModifierMask_eq, hrest, BitVec.zero_or, translations_mask t h, if_pos hmem]

lemma keyMask_translateKey (id : Keys.KeyID) : keyMask (t.translateKey id) = t.translateModifierMask (keyMask id) := by
  rw [translateKey, keyMask.eq_def id]
  cases h : keyModifier? id with
  | none =>
    simp only [keyMask, h]
    exact t.translateModifierMask_zero.symm
  | some modifier =>
    obtain ⟨id2, side⟩ := modifier
    exact (keyMask_keys (t id2) side).trans (t.translateModifierMask_mask (ne_null_of_keyModifier? h)).symm

/-- A mask that has the bits of the modifiers that are held is translated to one that has the bits of what
their keys are translated to, and keeps what is no modifier. -/
theorem translateModifierMask_held (mask : Keys.KeyModifierMask) (held : List Keys.KeyID) :
    t.translateModifierMask (mask ||| heldMask held) =
      t.translateModifierMask mask ||| heldMask (held.map t.translateKey) := by
  induction held with
  | nil => simp [heldMask]
  | cons id held ih =>
    rw [translateModifierMask_or] at ih ⊢
    have hcons : ∀ id held, heldMask (id :: held) = keyMask id ||| heldMask held := fun _ _ => rfl
    rw [List.map_cons, hcons, hcons, translateModifierMask_or, keyMask_translateKey]
    calc t.translateModifierMask mask ||| (t.translateModifierMask (keyMask id) ||| t.translateModifierMask (heldMask held))
        = t.translateModifierMask (keyMask id) |||
            (t.translateModifierMask mask ||| t.translateModifierMask (heldMask held)) := by ac_rfl
      _ = t.translateModifierMask mask ||| (t.translateModifierMask (keyMask id) ||| heldMask (held.map t.translateKey)) := by
          rw [ih]
          ac_rfl

end Translation

end ModifierTable

end InputLeap.Client
