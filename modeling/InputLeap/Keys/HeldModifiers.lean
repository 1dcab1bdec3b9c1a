import InputLeap.Keys.ModifierSearch
import InputLeap.Keys.ModifierTracking
import Mathlib.Data.Finset.Basic
import Mathlib.Data.List.Perm.Basic

/-! The modifier keys that are down while a key is synthesized. What has been recorded for the modifiers is what the
keystrokes lead to. -/

namespace InputLeap.Keys

open InputLeap.Lib

def Keystroke.play (held : Finset KeyButton) : Keystroke → Finset KeyButton
  | .button b press _ _ => if press then insert b held else held.erase b
  | .group _ _ _ => held

def playAll (ks : List Keystroke) (held : Finset KeyButton) : Finset KeyButton := ks.foldl Keystroke.play held

def heldButtons (modifiers : ModifierToKeys) : Finset KeyButton := (modifiers.map fun e => e.2.button).toFinset

/-- A key that generates one modifier, does not lock and is not sensitive to other modifiers. -/
def KeyItem.IsPlain (item : KeyItem) : Prop :=
  ∃ bit < kKeyModifierNumBits, item.generates = BitVec.twoPow 32 bit ∧ item.lock = false ∧
    item.sensitive &&& ~~~item.generates = 0

instance (item : KeyItem) : Decidable item.IsPlain :=
  inferInstanceAs (Decidable (∃ bit < kKeyModifierNumBits, _))

section Play

variable {ks ks' : List Keystroke} {held : Finset KeyButton} {modifiers : ModifierToKeys} {button : KeyButton}
  {item : KeyItem}

lemma playAll_append (ks ks' : List Keystroke) (held : Finset KeyButton) :
    playAll (ks ++ ks') held = playAll ks' (playAll ks held) :=
  List.foldl_append

lemma mem_heldButtons : button ∈ heldButtons modifiers ↔ ∃ e ∈ modifiers, e.2.button = button := by
  simp [heldButtons]

def Spares (button : KeyButton) (ks : List Keystroke) : Prop :=
  ∀ k ∈ ks, ∀ b press isRepeat client, k = .button b press isRepeat client → b ≠ button

lemma mem_playAll_of_spares (h : Spares button ks) : button ∈ playAll ks held ↔ button ∈ held := by
  induction ks generalizing held with
  | nil => rfl
  | cons k ks ih =>
    rw [playAll, List.foldl_cons, ← playAll, ih fun k hk => h k (List.mem_cons_of_mem _ hk)]
    cases k with
    | button b press isRepeat client =>
      have hne : button ≠ b := (h _ List.mem_cons_self b press isRepeat client rfl).symm
      cases press <;> simp [Keystroke.play, hne]
    | group => rfl

lemma mem_playAll_release {entries : ModifierToKeys} :
    button ∈ playAll (entries.map fun e => KeyMap.releaseKey e.2) held ↔
      button ∈ held ∧ button ∉ heldButtons entries := by
  induction entries generalizing held with
  | nil => simp [playAll, heldButtons]
  | cons e entries ih =>
    rw [List.map_cons, playAll, List.foldl_cons, ← playAll, ih]
    simp only [KeyMap.releaseKey, Keystroke.play, Bool.false_eq_true, if_false, Finset.mem_erase, mem_heldButtons,
      List.exists_mem_cons_iff, not_or]
    tauto

lemma KeyItem.IsPlain.bit (h : item.IsPlain) {bit : ℕ} (hbit : item.generates.getLsbD bit = true) :
    item.generates = BitVec.twoPow 32 bit := by
  obtain ⟨own, -, hown, -⟩ := h
  rw [hown, BitVec.getLsbD_twoPow, Bool.and_eq_true, decide_eq_true_eq, decide_eq_true_eq] at hbit
  rw [hown, hbit.2]

lemma KeyItem.IsPlain.exists_bit (h : item.IsPlain) : ∃ bit, item.generates.getLsbD bit = true := by
  obtain ⟨own, hlt, hown, -⟩ := h
  have hwide : own < 32 := hlt.trans (by decide)
  exact ⟨own, by rw [hown, BitVec.getLsbD_twoPow]; simp [hwide]⟩

lemma KeyItem.IsPlain.ne_zero (h : item.IsPlain) : item.generates ≠ 0 := by
  obtain ⟨bit, hbit⟩ := h.exists_bit
  intro hzero
  rw [hzero] at hbit
  simp at hbit

end Play

namespace KeyMap

/-- The modifiers that are active are those of the keys that are down, of which each is one of the keys `P`. -/
structure Consistent (P : KeyItem → Prop) (held : Finset KeyButton) (s : Synthesis) : Prop where
  keys : ∀ e ∈ s.activeModifiers, e.1 = e.2.generates ∧ P e.2 ∧ e.2.IsPlain
  distinct : (s.activeModifiers.map fun e => e.2.button).Nodup
  agrees : ∀ bit, s.currentState.getLsbD bit = true ↔ ∃ e ∈ s.activeModifiers, e.1.getLsbD bit = true
  played : ∀ item, P item → item.IsPlain →
    (item.button ∈ playAll s.keystrokes held ↔ item.button ∈ heldButtons s.activeModifiers)

section Steps

variable {m : KeyMap} {P : KeyItem → Prop} {held : Finset KeyButton} {s : Synthesis} {item : KeyItem}

lemma Consistent.quiet (h : Consistent P held s) {ks : List Keystroke}
    (hks : ∀ item, P item → item.IsPlain → Spares item.button ks) : Consistent P held (s.pushAll ks) where
  keys := h.keys
  distinct := h.distinct
  agrees := h.agrees
  played item hitem hplain := by
    rw [Synthesis.pushAll, playAll_append, mem_playAll_of_spares (hks item hitem hplain)]
    exact h.played item hitem hplain

lemma Consistent.entry_of_button (h : Consistent P held s) {e e' : KeyModifierMask × KeyItem}
    (he : e ∈ s.activeModifiers) (he' : e' ∈ s.activeModifiers) (hbutton : e.2.button = e'.2.button) : e = e' :=
  List.inj_on_of_nodup_map h.distinct he he' hbutton

lemma Consistent.pressed (h : Consistent P held s) (hitem : P item) (hplain : item.IsPlain)
    (hup : item.button ∉ heldButtons s.activeModifiers) :
    Consistent P held ((s.push (pressKey item)).activate item) := by
  have hperm := MultiMap.insert_perm item.generates item s.activeModifiers
  have hmem : ∀ e, e ∈ ((s.push (pressKey item)).activate item).activeModifiers ↔
      e = (item.generates, item) ∨ e ∈ s.activeModifiers := fun e => hperm.mem_iff.trans List.mem_cons
  constructor
  · intro e he
    rcases (hmem e).mp he with rfl | he
    · exact ⟨rfl, hitem, hplain⟩
    · exact h.keys e he
  · apply (hperm.map fun e => e.2.button).nodup_iff.mpr
    rw [List.map_cons, List.nodup_cons]
    exact ⟨fun hdown => hup (List.mem_toFinset.mpr hdown), h.distinct⟩
  · intro bit
    simp only [hmem, exists_eq_or_imp]
    rw [← h.agrees bit]
    show (s.currentState ||| item.generates).getLsbD bit = true ↔ _
    rw [BitVec.getLsbD_or, Bool.or_eq_true]
    exact or_comm
  · intro other hother hplain'
    rw [mem_heldButtons]
    simp only [hmem, exists_eq_or_imp]
    rw [← mem_heldButtons, ← h.played other hother hplain']
    show other.button ∈ playAll (s.keystrokes ++ [pressKey item]) held ↔ _
    rw [playAll_append]
    simp [playAll, pressKey, Keystroke.play, eq_comm]

lemma Consistent.cleared (h : Consistent P held s) (hplain : item.IsPlain) {rest : ModifierToKeys}
    (hrest : ∀ e, e ∈ rest ↔ e ∈ s.activeModifiers ∧ e.1 ≠ item.generates) (bit : ℕ) :
    (s.currentState &&& ~~~item.generates).getLsbD bit = true ↔ ∃ e ∈ rest, e.1.getLsbD bit = true := by
  rw [BitVec.getLsbD_and, BitVec.getLsbD_not, Bool.and_eq_true, Bool.and_eq_true, Bool.not_eq_true']
  constructor
  · rintro ⟨hstate, -, hclear⟩
    obtain ⟨e, he, hbit⟩ := (h.agrees bit).mp hstate
    refine ⟨e, (hrest e).mpr ⟨he, ?_⟩, hbit⟩
    intro heq
    rw [heq, hclear] at hbit
    cases hbit
  · rintro ⟨e, he, hbit⟩
    obtain ⟨hactive, hne⟩ := (hrest e).mp he
    have hstate := (h.agrees bit).mpr ⟨e, hactive, hbit⟩
    refine ⟨hstate, decide_eq_true (BitVec.lt_of_getLsbD hstate), ?_⟩
    by_contra hset
    obtain ⟨hkey, -, hother⟩ := h.keys e hactive
    rw [hkey] at hbit hne
    exact hne ((hother.bit hbit).trans (hplain.bit (Bool.eq_true_of_not_eq_false hset)).symm)

lemma Consistent.released (h : Consistent P held s) (hplain : item.IsPlain) :
    Consistent P held ((s.pushAll ((MultiMap.equalRange item.generates s.activeModifiers).map fun e =>
      releaseKey e.2)).deactivate item) := by
  have hmem : ∀ e, e ∈ MultiMap.erase item.generates s.activeModifiers ↔
      e ∈ s.activeModifiers ∧ e.1 ≠ item.generates := by simp [MultiMap.erase]
  constructor
  · exact fun e he => h.keys e ((hmem e).mp he).1
  · exact h.distinct.sublist (List.filter_sublist.map _)
  · exact h.cleared hplain hmem
  · intro other hother hplain'
    show other.button ∈ playAll (s.keystrokes ++ _) held ↔
      other.button ∈ heldButtons (MultiMap.erase item.generates s.activeModifiers)
    rw [playAll_append, mem_playAll_release, h.played other hother hplain', mem_heldButtons, mem_heldButtons,
      mem_heldButtons]
    constructor
    · rintro ⟨⟨e, he, hbutton⟩, hnot⟩
      refine ⟨e, (hmem e).mpr ⟨he, fun heq => hnot ⟨e, ?_, hbutton⟩⟩, hbutton⟩
      simp [MultiMap.equalRange, he, heq]
    · rintro ⟨e, he, hbutton⟩
      obtain ⟨hactive, hne⟩ := (hmem e).mp he
      refine ⟨⟨e, hactive, hbutton⟩, ?_⟩
      rintro ⟨e', he', hbutton'⟩
      obtain ⟨hactive', heq⟩ : e' ∈ s.activeModifiers ∧ e'.1 = item.generates := by
        simpa [MultiMap.equalRange] using he'
      rw [h.entry_of_button hactive' hactive (hbutton'.trans hbutton.symm)] at heq
      exact hne heq

lemma Consistent.eraseFirst_perm (h : Consistent P held s) {e : KeyModifierMask × KeyItem}
    (he : e ∈ s.activeModifiers) :
    s.activeModifiers.Perm
      (e :: MultiMap.eraseFirst e.2.generates (fun i => decide (i.button = e.2.button)) s.activeModifiers) := by
  have hkey := (h.keys e he).1
  obtain ⟨a, front, rest, -, ha, hsplit, herase⟩ := List.exists_of_eraseP
    (p := fun x : KeyModifierMask × KeyItem => decide (x.1 = e.2.generates) && decide (x.2.button = e.2.button)) he
    (by simp [hkey])
  rw [MultiMap.eraseFirst, herase]
  rw [Bool.and_eq_true, decide_eq_true_eq, decide_eq_true_eq] at ha
  obtain rfl : a = e := h.entry_of_button (by rw [hsplit]; simp) he ha.2
  rw [hsplit]
  exact List.perm_middle

lemma Consistent.removed (h : Consistent P held s) {e : KeyModifierMask × KeyItem} (he : e ∈ s.activeModifiers) :
    Consistent P held ((s.push (releaseKey e.2)).removeKey e.2) ∧
      ∀ e', e' ∈ ((s.push (releaseKey e.2)).removeKey e.2).activeModifiers ↔ e' ∈ s.activeModifiers ∧ e' ≠ e := by
  obtain ⟨hkey, hP, hplain⟩ := h.keys e he
  have hperm := h.eraseFirst_perm he
  generalize hrest :
    MultiMap.eraseFirst e.2.generates (fun i => decide (i.button = e.2.button)) s.activeModifiers = rest at hperm
  have hnodup := (hperm.map fun e => e.2.button).nodup_iff.mp h.distinct
  rw [List.map_cons, List.nodup_cons] at hnodup
  have hmem : ∀ e', e' ∈ rest ↔ e' ∈ s.activeModifiers ∧ e' ≠ e := by
    intro e'
    rw [hperm.mem_iff, List.mem_cons]
    constructor
    · intro hin
      refine ⟨.inr hin, ?_⟩
      rintro rfl
      exact hnodup.1 (List.mem_map_of_mem hin)
    · exact fun hin => hin.1.resolve_left hin.2
  have hremoved : (s.push (releaseKey e.2)).removeKey e.2 =
      ⟨rest, if MultiMap.count e.2.generates rest = 0 then s.currentState &&& ~~~e.2.generates else s.currentState,
        s.keystrokes ++ [releaseKey e.2]⟩ := by
    rw [← hrest]
    rfl
  rw [hremoved]
  refine ⟨⟨fun e' he' => h.keys e' ((hmem e').mp he').1, hnodup.2, ?_, ?_⟩, hmem⟩
  · intro bit
    dsimp only
    split_ifs with hcount
    · apply h.cleared hplain
      intro e'
      have hnone : ∀ e' ∈ rest, e'.1 ≠ e.2.generates := by
        intro e' he' heq
        rw [MultiMap.count, List.length_eq_zero_iff, MultiMap.equalRange, List.filter_eq_nil_iff] at hcount
        exact hcount e' he' (decide_eq_true heq)
      constructor
      · exact fun he' => ⟨((hmem e').mp he').1, hnone e' he'⟩
      · rintro ⟨hactive, hne⟩
        refine (hmem e').mpr ⟨hactive, ?_⟩
        rintro rfl
        exact hne hkey
    · rw [h.agrees bit]
      constructor
      · rintro ⟨e', he', hbit⟩
        by_cases heq : e' = e
        · obtain ⟨other, hother⟩ := List.exists_mem_of_length_pos (Nat.pos_of_ne_zero hcount)
          obtain ⟨hin, hsame⟩ : other ∈ rest ∧ other.1 = e.2.generates := by
            simpa [MultiMap.equalRange] using hother
          exact ⟨other, hin, by rw [hsame, ← hkey, ← heq]; exact hbit⟩
        · exact ⟨e', (hmem e').mpr ⟨he', heq⟩, hbit⟩
      · rintro ⟨e', he', hbit⟩
        exact ⟨e', ((hmem e').mp he').1, hbit⟩
  · intro other hother hplain'
    dsimp only
    rw [playAll_append, mem_heldButtons]
    have hplay : other.button ∈ playAll [releaseKey e.2] (playAll s.keystrokes held) ↔
        other.button ≠ e.2.button ∧ other.button ∈ heldButtons s.activeModifiers := by
      rw [← h.played other hother hplain']
      simp [playAll, releaseKey, Keystroke.play]
    rw [hplay, mem_heldButtons]
    constructor
    · rintro ⟨hne, e', he', hbutton⟩
      refine ⟨e', (hmem e').mpr ⟨he', ?_⟩, hbutton⟩
      rintro rfl
      exact hne hbutton.symm
    · rintro ⟨e', he', hbutton⟩
      obtain ⟨hactive, hne⟩ := (hmem e').mp he'
      refine ⟨fun heq => hne (h.entry_of_button hactive he (hbutton.trans heq)), e', hactive, hbutton⟩

end Steps

def items (m : KeyMap) : List KeyItem := m.keyIDMap.flatMap fun e => e.2.flatten.flatten

/-- The keys of a finished map are among `P`, whose modifier keys are plain. One button stands for one modifier. -/
structure Pool (m : KeyMap) (P : KeyItem → Prop) : Prop where
  finished : m.modifierKeys = setModifierKeys m.keyIDMap m.numGroups
  items : ∀ item ∈ m.items, item.generates ≠ 0 → P item
  plain : ∀ item, P item → item.generates ≠ 0 → item.IsPlain
  shared : ∀ i j, P i → P j → i.button = j.button → i.generates = j.generates

section Search

variable {m : KeyMap} {P : KeyItem → Prop} {held : Finset KeyButton} {s : Synthesis} {item : KeyItem}
  {button : KeyButton} {group bit : ℕ} {notRequired : KeyModifierMask}

lemma mem_keysGenerating (h : item ∈ keysGenerating m.keyIDMap group bit) :
    item ∈ m.items ∧ item.generates.getLsbD bit = true := by
  obtain ⟨e, he, hfiltered⟩ := List.mem_flatMap.mp h
  obtain ⟨entry, hentry, hitem⟩ := List.mem_filterMap.mp hfiltered
  split at hitem
  · split_ifs at hitem with hbit
    obtain rfl := Option.some.inj hitem
    refine ⟨List.mem_flatMap.mpr ⟨e, he, ?_⟩, hbit⟩
    rw [List.getD_eq_getElem?_getD] at hentry
    cases hgroup : e.2[group]? with
    | none => simp [hgroup] at hentry
    | some entries =>
      rw [hgroup, Option.getD_some] at hentry
      have hentries := List.mem_of_getElem? hgroup
      exact List.mem_flatten.mpr ⟨_, List.mem_flatten.mpr ⟨_, hentries, hentry⟩, List.mem_singleton_self _⟩
  · cases hitem

lemma Pool.keyForModifier (hpool : Pool m P) (hbit : bit < kKeyModifierNumBits)
    (h : m.keyForModifier button group bit = some item) :
    P item ∧ item.IsPlain ∧ item.generates = BitVec.twoPow 32 bit := by
  have hmem := List.mem_of_find?_eq_some h
  rw [hpool.finished, setModifierKeys, List.getD_eq_getElem?_getD, List.getElem?_map] at hmem
  cases hindex : (List.range (m.numGroups * kKeyModifierNumBits))[group * kKeyModifierNumBits + bit]? with
  | none => simp [hindex] at hmem
  | some i =>
    obtain ⟨hlt, hi⟩ := List.getElem?_eq_some_iff.mp hindex
    rw [List.getElem_range] at hi
    have hmod : i % kKeyModifierNumBits = bit := by
      rw [← hi, Nat.mul_add_mod_self_right, Nat.mod_eq_of_lt hbit]
    rw [hindex, Option.map_some, Option.getD_some, hmod] at hmem
    obtain ⟨hitem, hgenerates⟩ := mem_keysGenerating hmem
    have hP := hpool.items item hitem (by rintro hzero; simp [hzero] at hgenerates)
    have hplain := hpool.plain item hP (by rintro hzero; simp [hzero] at hgenerates)
    exact ⟨hP, hplain, hplain.bit hgenerates⟩

/-- The key for a modifier is pressed or released without any other. -/
lemma changeModifier_plain (hfound : m.keyForModifier button group bit = some item) (hplain : item.IsPlain)
    (hbit : item.generates = BitVec.twoPow 32 bit)
    (adjust : KeyModifierMask → KeyModifierMask → Synthesis → Bool × Synthesis) (active : Bool) :
    m.changeModifier button group notRequired bit adjust active s =
      (true, m.addKeystrokes (if active then .modify else .unmodify) item s) := by
  obtain ⟨-, -, -, -, hsensitive⟩ := hplain
  rw [hbit] at hsensitive
  simp [changeModifier, hfound, hsensitive]

lemma addKeystrokes_modify (hplain : item.IsPlain) (s : Synthesis) :
    m.addKeystrokes .modify item s = (s.push (pressKey item)).activate item := by
  obtain ⟨-, -, -, hlock, -⟩ := hplain
  simp [addKeystrokes, hlock]

lemma addKeystrokes_unmodify (hplain : item.IsPlain) (s : Synthesis) :
    m.addKeystrokes .unmodify item s =
      (s.pushAll ((MultiMap.equalRange item.generates s.activeModifiers).map fun e => releaseKey e.2)).deactivate
        item := by
  obtain ⟨-, -, -, hlock, -⟩ := hplain
  simp [addKeystrokes, hlock]

lemma Pool.up (hpool : Pool m P) (h : Consistent P held s) (hitem : P item) (hbit : item.generates.getLsbD bit = true)
    (hstate : s.currentState.getLsbD bit = false) : item.button ∉ heldButtons s.activeModifiers := by
  intro hdown
  obtain ⟨e, he, hbutton⟩ := mem_heldButtons.mp hdown
  obtain ⟨hkey, hother, -⟩ := h.keys e he
  have hset := (h.agrees bit).mpr ⟨e, he, by rw [hkey, hpool.shared e.2 item hother hitem hbutton]; exact hbit⟩
  rw [hstate] at hset
  cases hset

lemma Pool.changeModifier (hpool : Pool m P) (h : Consistent P held s) (hbit : bit < kKeyModifierNumBits)
    {active : Bool} (hflip : s.currentState.getLsbD bit ≠ active) (button : KeyButton) (group : ℕ)
    (notRequired : KeyModifierMask) (adjust : KeyModifierMask → KeyModifierMask → Synthesis → Bool × Synthesis) :
    Consistent P held (m.changeModifier button group notRequired bit adjust active s).2 ∧
      (∀ y ≠ bit, (m.changeModifier button group notRequired bit adjust active s).2.currentState.getLsbD y =
        s.currentState.getLsbD y) ∧
      ∀ e ∈ (m.changeModifier button group notRequired bit adjust active s).2.activeModifiers,
        e ∈ s.activeModifiers ∨ s.currentState.getLsbD bit = false ∧ e.1.getLsbD bit = true := by
  cases hfound : m.keyForModifier button group bit with
  | none =>
    rw [KeyMap.changeModifier, hfound]
    exact ⟨h, fun _ _ => rfl, fun _ => Or.inl⟩
  | some item =>
    obtain ⟨hitem, hplain, hgenerates⟩ := hpool.keyForModifier hbit hfound
    have hwide : bit < 32 := hbit.trans (by decide)
    have hown : item.generates.getLsbD bit = true := by
      rw [hgenerates, BitVec.getLsbD_twoPow]
      simp [hwide]
    rw [changeModifier_plain hfound hplain hgenerates]
    refine ⟨?_, fun y hy => ?_, ?_⟩
    · cases active with
      | true =>
        rw [if_pos rfl, addKeystrokes_modify hplain]
        exact h.pressed hitem hplain (hpool.up h hitem hown (Bool.eq_false_of_not_eq_true hflip))
      | false =>
        rw [if_neg Bool.false_ne_true, addKeystrokes_unmodify hplain]
        exact h.released hplain
    · have hother : item.generates.getLsbD y = false := by
        rw [hgenerates, BitVec.getLsbD_twoPow]
        simp [hy.symm]
      rw [addKeystrokes_state, KeyChange.apply_getLsbD]
      dsimp only
      rw [hother, if_neg Bool.false_ne_true]
    · cases active with
      | true =>
        rw [if_pos rfl, addKeystrokes_modify hplain]
        intro e he
        rcases List.mem_cons.mp ((MultiMap.insert_perm _ _ _).mem_iff.mp he) with rfl | hin
        · exact .inr ⟨Bool.eq_false_of_not_eq_true hflip, hown⟩
        · exact .inl hin
      | false =>
        rw [if_neg Bool.false_ne_true, addKeystrokes_unmodify hplain]
        exact fun e he => .inl (List.mem_of_mem_filter he)

/-- What a search has changed, from one state to another: modifiers of a mask, of which those are pressed that were not
active. -/
structure ChangedIn (mask : KeyModifierMask) (s t : Synthesis) : Prop where
  state : ∀ y, mask.getLsbD y = false → t.currentState.getLsbD y = s.currentState.getLsbD y
  fresh : ∀ e ∈ t.activeModifiers, e ∈ s.activeModifiers ∨
    ∃ y, mask.getLsbD y = true ∧ s.currentState.getLsbD y = false ∧ e.1.getLsbD y = true

lemma ChangedIn.refl (mask : KeyModifierMask) (s : Synthesis) : ChangedIn mask s s :=
  ⟨fun _ _ => rfl, fun _ => Or.inl⟩

lemma Pool.modifierLoop (hpool : Pool m P) {bits : ℕ} (hbits : bits ≤ kKeyModifierNumBits)
    {flip required : KeyModifierMask}
    (hflip : ∀ y < bits, flip.getLsbD y = true → s.currentState.getLsbD y ≠ required.getLsbD y)
    (h : Consistent P held s) (button : KeyButton) (group : ℕ) (notRequired : KeyModifierMask) :
    Consistent P held (m.modifierLoop button group notRequired bits flip required s).2 ∧
      (∀ y, (bits ≤ y ∨ flip.getLsbD y = false) →
        (m.modifierLoop button group notRequired bits flip required s).2.currentState.getLsbD y =
          s.currentState.getLsbD y) ∧
      ∀ e ∈ (m.modifierLoop button group notRequired bits flip required s).2.activeModifiers, e ∈ s.activeModifiers ∨
        ∃ y < bits, flip.getLsbD y = true ∧ s.currentState.getLsbD y = false ∧ e.1.getLsbD y = true := by
  induction bits generalizing s with
  | zero => exact ⟨h, fun _ _ => rfl, fun _ => Or.inl⟩
  | succ bit ih =>
    rw [KeyMap.modifierLoop]
    dsimp only
    by_cases hbit : flip.getLsbD bit = true
    · rw [if_pos hbit]
      obtain ⟨hchanged, hsame, hpressed⟩ := hpool.changeModifier h (by omega) (hflip bit bit.lt_succ_self hbit) button
        group notRequired (m.modifierLoop button group notRequired bit)
      have hne : ∀ y, bit + 1 ≤ y ∨ flip.getLsbD y = false → y ≠ bit := by
        rintro y hy rfl
        rcases hy with hy | hy
        · omega
        · rw [hbit] at hy
          cases hy
      have hnew : ∀ e, e ∈ s.activeModifiers ∨ s.currentState.getLsbD bit = false ∧ e.1.getLsbD bit = true →
          e ∈ s.activeModifiers ∨
            ∃ y < bit + 1, flip.getLsbD y = true ∧ s.currentState.getLsbD y = false ∧ e.1.getLsbD y = true :=
        fun e he => he.imp_right fun he => ⟨bit, bit.lt_succ_self, hbit, he⟩
      split_ifs
      · obtain ⟨hdone, hrest, hfresh⟩ := ih (by omega) (fun y hy hset => by
          rw [hsame y hy.ne]
          exact hflip y (hy.trans bit.lt_succ_self) hset) hchanged
        refine ⟨hdone, fun y hy => ?_, fun e he => ?_⟩
        · rw [hrest y (hy.imp_left Nat.le_of_succ_le), hsame y (hne y hy)]
        · rcases hfresh e he with hin | ⟨y, hy, hset, hclear, hown⟩
          · exact hnew e (hpressed e hin)
          · rw [hsame y hy.ne] at hclear
            exact .inr ⟨y, hy.trans bit.lt_succ_self, hset, hclear, hown⟩
      · exact ⟨hchanged, fun y hy => hsame y (hne y hy), fun e he => hnew e (hpressed e he)⟩
    · rw [if_neg hbit]
      obtain ⟨hdone, hrest, hfresh⟩ := ih (by omega) (fun y hy => hflip y (hy.trans bit.lt_succ_self)) h
      refine ⟨hdone, fun y hy => hrest y (hy.imp_left Nat.le_of_succ_le), fun e he => ?_⟩
      refine (hfresh e he).imp_right ?_
      rintro ⟨y, hy, hrest⟩
      exact ⟨y, hy.trans bit.lt_succ_self, hrest⟩

lemma Pool.keysForModifierState (hpool : Pool m P) (h : Consistent P held s) (button : KeyButton) (group : ℕ)
    (required sensitive notRequired : KeyModifierMask) :
    Consistent P held (m.keysForModifierState button group required sensitive notRequired s).2 ∧
      ChangedIn sensitive s (m.keysForModifierState button group required sensitive notRequired s).2 := by
  rw [KeyMap.keysForModifierState]
  split_ifs
  · exact ⟨h, .refl _ _⟩
  · have hflip := flipMask_getLsbD s.currentState required sensitive notRequired
    have hmask : ∀ y, (flipMask s.currentState required sensitive notRequired).getLsbD y = true →
        sensitive.getLsbD y = true := by
      intro y hy
      have hmasked := ((hflip y).mp hy).2
      rw [BitVec.getLsbD_and, Bool.and_eq_true] at hmasked
      exact hmasked.1
    obtain ⟨hdone, hrest, hfresh⟩ := hpool.modifierLoop le_rfl (fun y _ hy => ((hflip y).mp hy).1) h button group
      notRequired
    refine ⟨hdone, fun y hy => hrest y (.inr ?_), fun e he => (hfresh e he).imp_right ?_⟩
    · exact Bool.eq_false_of_not_eq_true fun hset => by
        rw [hmask y hset] at hy
        cases hy
    · rintro ⟨y, -, hset, hclear, hown⟩
      exact ⟨y, hmask y hset, hclear, hown⟩

end Search

section Items

variable {m : KeyMap} {P : KeyItem → Prop} {held : Finset KeyButton} {s t : Synthesis} {item : KeyItem}

/-- The button of a key that is no modifier is not that of one. -/
lemma Pool.spares (hpool : Pool m P) (hitem : P item) (hnone : item.generates = 0) {ks : List Keystroke}
    (hks : ∀ k ∈ ks, ∀ b press isRepeat client, k = .button b press isRepeat client → b = item.button) :
    ∀ other, P other → other.IsPlain → Spares other.button ks := by
  intro other hother hplain k hk b press isRepeat client hbutton heq
  have hsame := hpool.shared item other hitem hother ((hks k hk b press isRepeat client hbutton).symm.trans heq)
  exact hplain.ne_zero (hsame.symm.trans hnone)

lemma Consistent.push_group (h : Consistent P held s) (group : ℤ) (absolute restore : Bool) :
    Consistent P held (s.push (.group group absolute restore)) := by
  show Consistent P held (s.pushAll [.group group absolute restore])
  apply h.quiet
  intro item _ _ k hk b press isRepeat client hbutton
  rw [List.mem_singleton.mp hk] at hbutton
  cases hbutton

lemma Pool.addKeystrokes (hpool : Pool m P) (hitem : P item) (hnone : item.generates = 0) {type : EKeystroke}
    (htype : type = .press ∨ type = .autorepeat ∨ type = .click) (h : Consistent P held s) :
    Consistent P held (m.addKeystrokes type item s) := by
  have hquiet : ∀ ks, (∀ k ∈ ks, ∀ b press isRepeat client, k = .button b press isRepeat client → b = item.button) →
      Consistent P held (s.pushAll ks) := fun ks hks => h.quiet (hpool.spares hitem hnone hks)
  rcases htype with rfl | rfl | rfl
  · rw [KeyMap.addKeystrokes]
    simp only [hnone, ne_eq, not_true_eq_false, if_false]
    apply hquiet [pressKey item]
    simp [pressKey]
  · apply hquiet
    simp
  · apply hquiet
    simp [pressKey, releaseKey]

lemma addKeystrokes_activeModifiers (hnone : item.generates = 0) {type : EKeystroke}
    (htype : type = .press ∨ type = .autorepeat ∨ type = .click) :
    (m.addKeystrokes type item s).activeModifiers = s.activeModifiers := by
  rcases htype with rfl | rfl | rfl
  · rw [KeyMap.addKeystrokes]
    simp only [hnone, ne_eq, not_true_eq_false, if_false]
    rfl
  · rfl
  · rfl

/-- The keys that are down now and were not before are those of modifiers that were not active. -/
def Fresh (s t : Synthesis) : Prop :=
  ∀ e ∈ t.activeModifiers, e ∈ s.activeModifiers ∨ ∃ y, s.currentState.getLsbD y = false ∧ e.1.getLsbD y = true

lemma ChangedIn.fresh_next {mask mask' : KeyModifierMask} {u : Synthesis} (hst : ChangedIn mask s t)
    (htu : ChangedIn mask' t u) (hapart : ∀ y, mask'.getLsbD y = true → mask.getLsbD y = false) : Fresh s u := by
  intro e he
  rcases htu.fresh e he with hin | ⟨y, hmask, hclear, hown⟩
  · refine (hst.fresh e hin).imp_right ?_
    rintro ⟨y, -, hrest⟩
    exact ⟨y, hrest⟩
  · rw [hst.state y (hapart y hmask)] at hclear
    exact .inr ⟨y, hclear, hown⟩

lemma Pool.keysForKeyItem (hpool : Pool m P) (hitem : P item) (hnone : item.generates = 0) (h : Consistent P held s)
    {desired override : KeyModifierMask} {isAutoRepeat : Bool} {group group' : ℕ}
    (hkeys : m.keysForKeyItem item desired override isAutoRepeat group s = some (group', t)) :
    Consistent P held t ∧ Fresh s t := by
  have hgroup : Consistent P held (if group ≠ item.group then s.push (.group item.group true false) else s) := by
    split_ifs
    · exact h.push_group _ _ _
    · exact h
  have hsame : ∀ t, Fresh (if group ≠ item.group then s.push (.group item.group true false) else s) t → Fresh s t := by
    intro t
    split_ifs
    · exact id
    · exact id
  rw [KeyMap.keysForKeyItem] at hkeys
  dsimp only at hkeys
  generalize (if group ≠ item.group then s.push (.group item.group true false) else s) = s' at hgroup hkeys hsame
  split_ifs at hkeys
  · obtain ⟨-, rfl⟩ := Prod.mk.inj (Option.some.inj hkeys)
    obtain ⟨hrequired, hchanged⟩ := hpool.keysForModifierState hgroup item.button item.group item.required
      item.sensitive 0
    refine ⟨hpool.addKeystrokes hitem hnone (by simp) hrequired, hsame _ ?_⟩
    rw [Fresh, addKeystrokes_activeModifiers hnone (by simp)]
    exact hchanged.fresh_next (.refl 0 _) (by simp)
  all_goals
    obtain ⟨-, rfl⟩ := Prod.mk.inj (Option.some.inj hkeys)
    obtain ⟨hrequired, hchanged⟩ := hpool.keysForModifierState hgroup item.button item.group item.required
      (item.sensitive &&& ~~~override) 0
    obtain ⟨hdesired, hchanged'⟩ := hpool.keysForModifierState hrequired item.button item.group desired
      (~~~(item.sensitive &&& ~~~override ||| item.generates)) keyModifierNotRequired
    refine ⟨hpool.addKeystrokes hitem hnone (by simp) hdesired, hsame _ ?_⟩
    rw [Fresh, addKeystrokes_activeModifiers hnone (by simp)]
    apply hchanged.fresh_next hchanged'
    intro y hy
    rw [BitVec.getLsbD_not, BitVec.getLsbD_or, Bool.and_eq_true, Bool.not_eq_true', Bool.or_eq_false_iff] at hy
    exact hy.2.1

lemma Pool.keysForKeyItems (hpool : Pool m P) {items : KeyItemList}
    (hitems : ∀ item ∈ items, P item ∧ item.generates = 0) (h : Consistent P held s)
    {desired override : KeyModifierMask} {isAutoRepeat : Bool} {group group' : ℕ}
    (hkeys : m.keysForKeyItems desired override isAutoRepeat items group s = some (group', t)) :
    Consistent P held t := by
  induction items generalizing group s with
  | nil =>
    obtain ⟨-, rfl⟩ := Prod.mk.inj (Option.some.inj hkeys)
    exact h
  | cons item items ih =>
    obtain ⟨⟨group₁, s₁⟩, hitem, hrest⟩ := Option.bind_eq_some_iff.mp hkeys
    obtain ⟨hP, hnone⟩ := hitems item List.mem_cons_self
    exact ih (fun i hi => hitems i (List.mem_cons_of_mem _ hi)) (hpool.keysForKeyItem hP hnone h hitem).1 hrest

end Items

end KeyMap

end InputLeap.Keys
