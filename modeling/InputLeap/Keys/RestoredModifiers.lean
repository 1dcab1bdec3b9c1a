import InputLeap.Keys.HeldModifiers

/-! A key that is synthesized leaves the modifiers as they were. What has been pressed and released for it is put
back by buttons, so that a button has to stand for one modifier. -/

namespace InputLeap.Keys.KeyMap

open InputLeap.Lib

section Restore

variable {m : KeyMap} {P : KeyItem → Prop} {held : Finset KeyButton} {s t : Synthesis} {item : KeyItem}
  {desired old l : ModifierToKeys} {e : KeyModifierMask × KeyItem}

lemma hasButton_iff {button : KeyButton} : hasButton desired button = true ↔ button ∈ heldButtons desired := by
  simp [hasButton, mem_heldButtons]

lemma releaseUnwanted_plain (hplain : e.2.IsPlain) (hother : e.2.button ≠ item.button) :
    m.releaseUnwanted item desired s e =
      if hasButton desired e.2.button then s else (s.push (releaseKey e.2)).removeKey e.2 := by
  have hne := hplain.ne_zero
  obtain ⟨-, -, -, hlock, -⟩ := hplain
  rw [releaseUnwanted, hlock]
  cases hasButton desired e.2.button with
  | true => simp
  | false =>
    simp only [ne_eq, hother, not_false_eq_true, true_and, if_true, Bool.false_eq_true, if_false, KeyMap.addKeystrokes]
    exact if_pos ⟨hne, hlock⟩

lemma pressWanted_plain (hplain : e.2.IsPlain) (hother : e.2.button ≠ item.button) :
    m.pressWanted item old s e = if hasButton old e.2.button then s else (s.push (pressKey e.2)).activate e.2 := by
  have hne := hplain.ne_zero
  obtain ⟨-, -, -, hlock, -⟩ := hplain
  rw [pressWanted, hlock]
  cases hasButton old e.2.button with
  | true => simp
  | false =>
    simp only [ne_eq, hother, not_false_eq_true, true_and, if_true, Bool.false_eq_true, if_false, KeyMap.addKeystrokes,
      hlock, Bool.not_false, Bool.true_or]
    exact if_pos hne

lemma Consistent.releaseAll (m : KeyMap) (desired : ModifierToKeys) (h : Consistent P held s)
    (hl : ∀ e ∈ l, e ∈ s.activeModifiers) (hdistinct : (l.map fun e => e.2.button).Nodup)
    (hother : ∀ e ∈ l, e.2.button ≠ item.button) :
    Consistent P held (l.foldl (m.releaseUnwanted item desired) s) ∧
      ∀ e, e ∈ (l.foldl (m.releaseUnwanted item desired) s).activeModifiers ↔
        e ∈ s.activeModifiers ∧ (e ∈ l → e.2.button ∈ heldButtons desired) := by
  induction l generalizing s with
  | nil => exact ⟨h, by simp⟩
  | cons e l ih =>
    rw [List.map_cons, List.nodup_cons] at hdistinct
    rw [List.forall_mem_cons] at hl hother
    have hplain := (h.keys e hl.1).2.2
    rw [List.foldl_cons, releaseUnwanted_plain hplain hother.1]
    split_ifs with hwanted
    · obtain ⟨hfolded, hmem⟩ := ih h hl.2 hdistinct.2 hother.2
      refine ⟨hfolded, fun e' => ?_⟩
      rw [hmem, List.mem_cons]
      constructor
      · rintro ⟨hactive, hkept⟩
        refine ⟨hactive, ?_⟩
        rintro (rfl | hin)
        · exact hasButton_iff.mp hwanted
        · exact hkept hin
      · exact fun hin => ⟨hin.1, fun hl => hin.2 (.inr hl)⟩
    · obtain ⟨hremoved, hrest⟩ := h.removed hl.1
      have hne : ∀ e' ∈ l, e' ≠ e := by
        rintro e' he' rfl
        exact hdistinct.1 (List.mem_map_of_mem he')
      obtain ⟨hfolded, hmem⟩ := ih hremoved (fun e' he' => (hrest e').mpr ⟨hl.2 e' he', hne e' he'⟩) hdistinct.2
        hother.2
      refine ⟨hfolded, fun e' => ?_⟩
      rw [hmem, hrest, List.mem_cons]
      constructor
      · rintro ⟨⟨hactive, hne'⟩, hkept⟩
        exact ⟨hactive, fun hin => hkept (hin.resolve_left hne')⟩
      · rintro ⟨hactive, hkept⟩
        refine ⟨⟨hactive, ?_⟩, fun hin => hkept (.inr hin)⟩
        rintro rfl
        exact hwanted (hasButton_iff.mpr (hkept (.inl rfl)))

lemma Consistent.pressAll (m : KeyMap) (old : ModifierToKeys) (h : Consistent P held s)
    (hl : ∀ e ∈ l, e.1 = e.2.generates ∧ P e.2 ∧ e.2.IsPlain) (hdistinct : (l.map fun e => e.2.button).Nodup)
    (hother : ∀ e ∈ l, e.2.button ≠ item.button)
    (hup : ∀ e ∈ l, hasButton old e.2.button = false → e.2.button ∉ heldButtons s.activeModifiers) :
    Consistent P held (l.foldl (m.pressWanted item old) s) ∧
      ∀ e, e ∈ (l.foldl (m.pressWanted item old) s).activeModifiers ↔
        e ∈ s.activeModifiers ∨ e ∈ l ∧ e.2.button ∉ heldButtons old := by
  induction l generalizing s with
  | nil => exact ⟨h, by simp⟩
  | cons e l ih =>
    rw [List.map_cons, List.nodup_cons] at hdistinct
    rw [List.forall_mem_cons] at hl hother hup
    obtain ⟨hkey, hP, hplain⟩ := hl.1
    rw [List.foldl_cons, pressWanted_plain hplain hother.1]
    split_ifs with hdown
    · obtain ⟨hfolded, hmem⟩ := ih h hl.2 hdistinct.2 hother.2 hup.2
      refine ⟨hfolded, fun e' => ?_⟩
      rw [hmem, List.mem_cons]
      have hin := hasButton_iff.mp hdown
      constructor
      · exact fun h => h.imp_right fun h => ⟨.inr h.1, h.2⟩
      · rintro (hactive | ⟨rfl | hl, hnot⟩)
        · exact .inl hactive
        · exact absurd hin hnot
        · exact .inr ⟨hl, hnot⟩
    · have hdown := Bool.eq_false_of_not_eq_true hdown
      have hpressed := h.pressed hP hplain (hup.1 hdown)
      have hadded : ∀ e', e' ∈ ((s.push (pressKey e.2)).activate e.2).activeModifiers ↔
          e' = e ∨ e' ∈ s.activeModifiers := by
        intro e'
        rw [show e = (e.2.generates, e.2) from Prod.ext hkey rfl]
        exact (MultiMap.insert_perm e.2.generates e.2 s.activeModifiers).mem_iff.trans List.mem_cons
      obtain ⟨hfolded, hmem⟩ := ih hpressed hl.2 hdistinct.2 hother.2 (by
        intro e' he' hold hin
        obtain ⟨e'', he'', hbutton⟩ := mem_heldButtons.mp hin
        rcases (hadded e'').mp he'' with rfl | hactive
        · exact hdistinct.1 (List.mem_map.mpr ⟨e', he', hbutton.symm⟩)
        · exact hup.2 e' he' hold (mem_heldButtons.mpr ⟨e'', hactive, hbutton⟩))
      refine ⟨hfolded, fun e' => ?_⟩
      rw [hmem, hadded, List.mem_cons]
      have hnot : e.2.button ∉ heldButtons old := by
        rw [← hasButton_iff, hdown]
        exact Bool.false_ne_true
      constructor
      · rintro ((rfl | hactive) | ⟨hl, hnot'⟩)
        · exact .inr ⟨.inl rfl, hnot⟩
        · exact .inl hactive
        · exact .inr ⟨.inr hl, hnot'⟩
      · rintro (hactive | ⟨rfl | hl, hnot'⟩)
        · exact .inl (.inr hactive)
        · exact .inl (.inl rfl)
        · exact .inr ⟨hl, hnot'⟩

/-- The same keys are down for the modifiers, as far as they are told apart by their buttons. -/
def SameKeys (s t : Synthesis) : Prop :=
  (t.activeModifiers.map fun e => (e.1, e.2.button)).Perm (s.activeModifiers.map fun e => (e.1, e.2.button))

lemma Consistent.sameKeys (hs : Consistent P held s) (ht : Consistent P held t)
    (h : ∀ e ∈ t.activeModifiers, ∃ e' ∈ s.activeModifiers, (e'.1, e'.2.button) = (e.1, e.2.button))
    (h' : ∀ e ∈ s.activeModifiers, ∃ e' ∈ t.activeModifiers, (e'.1, e'.2.button) = (e.1, e.2.button)) :
    SameKeys s t ∧ t.currentState = s.currentState := by
  have hnodup : ∀ {u : Synthesis}, Consistent P held u → (u.activeModifiers.map fun e => (e.1, e.2.button)).Nodup := by
    intro u hu
    apply List.Nodup.of_map Prod.snd
    rw [List.map_map]
    exact hu.distinct
  constructor
  · apply (List.perm_ext_iff_of_nodup (hnodup ht) (hnodup hs)).mpr
    intro p
    rw [List.mem_map, List.mem_map]
    constructor
    · rintro ⟨e, he, rfl⟩
      exact h e he
    · rintro ⟨e, he, rfl⟩
      exact h' e he
  · apply BitVec.eq_of_getLsbD_eq
    intro bit _
    rw [Bool.eq_iff_iff, ht.agrees, hs.agrees]
    constructor
    · rintro ⟨e, he, hbit⟩
      obtain ⟨e', he', heq⟩ := h e he
      exact ⟨e', he', (Prod.mk.inj heq).1 ▸ hbit⟩
    · rintro ⟨e, he, hbit⟩
      obtain ⟨e', he', heq⟩ := h' e he
      exact ⟨e', he', (Prod.mk.inj heq).1 ▸ hbit⟩

lemma Pool.restores (hpool : Pool m P) (hitem : P item) (hnone : item.generates = 0) (hs : Consistent P held s)
    (ht : Consistent P held t) :
    Consistent P held (m.keysToRestoreModifiers item s.activeModifiers t) ∧
      (SameKeys s (m.keysToRestoreModifiers item s.activeModifiers t) ∧
        (m.keysToRestoreModifiers item s.activeModifiers t).currentState = s.currentState) ∧
      (Fresh s t → (m.keysToRestoreModifiers item s.activeModifiers t).activeModifiers.Perm s.activeModifiers) := by
  have hother : ∀ e : KeyModifierMask × KeyItem, P e.2 → e.2.IsPlain → e.2.button ≠ item.button := by
    intro e hP hplain hbutton
    exact hplain.ne_zero ((hpool.shared e.2 item hP hitem hbutton).trans hnone)
  obtain ⟨hreleased, hkept⟩ := Consistent.releaseAll m s.activeModifiers ht (fun e he => he) ht.distinct
    fun e he => hother e (ht.keys e he).2.1 (ht.keys e he).2.2
  have hup : ∀ e ∈ s.activeModifiers, hasButton t.activeModifiers e.2.button = false →
      e.2.button ∉
        heldButtons (t.activeModifiers.foldl (m.releaseUnwanted item s.activeModifiers) t).activeModifiers := by
    intro e _ hup hin
    obtain ⟨e', he', hbutton⟩ := mem_heldButtons.mp hin
    have hdown := hasButton_iff.mpr (mem_heldButtons.mpr ⟨e', ((hkept e').mp he').1, hbutton⟩)
    rw [hup] at hdown
    cases hdown
  obtain ⟨hpressed, hmem⟩ := Consistent.pressAll m t.activeModifiers hreleased hs.keys hs.distinct
    (fun e he => hother e (hs.keys e he).2.1 (hs.keys e he).2.2) hup
  have hmatch : ∀ e ∈ s.activeModifiers, ∀ e' ∈ t.activeModifiers, e'.2.button = e.2.button → e'.1 = e.1 := by
    intro e he e' he' hbutton
    obtain ⟨hkey, hP, -⟩ := hs.keys e he
    obtain ⟨hkey', hP', -⟩ := ht.keys e' he'
    rw [hkey, hkey', hpool.shared e'.2 e.2 hP' hP hbutton]
  have hback : ∀ e ∈ s.activeModifiers, ∀ e' ∈ t.activeModifiers, e'.2.button = e.2.button →
      e' ∈ (m.keysToRestoreModifiers item s.activeModifiers t).activeModifiers := by
    intro e he e' he' hbutton
    exact (hmem e').mpr (.inl ((hkept e').mpr ⟨he', fun _ => mem_heldButtons.mpr ⟨e, he, hbutton.symm⟩⟩))
  refine ⟨hpressed, hs.sameKeys hpressed ?_ ?_, fun hfresh => ?_⟩
  · intro e he
    rcases (hmem e).mp he with hin | ⟨hin, -⟩
    · obtain ⟨hactive, hwanted⟩ := (hkept e).mp hin
      obtain ⟨e', he', hbutton⟩ := mem_heldButtons.mp (hwanted hactive)
      exact ⟨e', he', by rw [hmatch e' he' e hactive hbutton.symm, hbutton]⟩
    · exact ⟨e, hin, rfl⟩
  · intro e he
    by_cases hold : e.2.button ∈ heldButtons t.activeModifiers
    · obtain ⟨e', he', hbutton⟩ := mem_heldButtons.mp hold
      exact ⟨e', hback e he e' he' hbutton, by rw [hmatch e he e' he' hbutton, hbutton]⟩
    · exact ⟨e, (hmem e).mpr (.inr ⟨he, hold⟩), rfl⟩
  · have hold : ∀ e ∈ (m.keysToRestoreModifiers item s.activeModifiers t).activeModifiers,
        e ∈ s.activeModifiers := by
      intro e he
      rcases (hmem e).mp he with hin | ⟨hin, -⟩
      · obtain ⟨hactive, hwanted⟩ := (hkept e).mp hin
        refine (hfresh e hactive).resolve_right ?_
        rintro ⟨y, hclear, hown⟩
        obtain ⟨e', he', hbutton⟩ := mem_heldButtons.mp (hwanted hactive)
        rw [hmatch e' he' e hactive hbutton.symm] at hown
        rw [(hs.agrees y).mpr ⟨e', he', hown⟩] at hclear
        cases hclear
      · exact hin
    apply (List.perm_ext_iff_of_nodup hpressed.distinct.of_map hs.distinct.of_map).mpr
    intro e
    refine ⟨hold e, fun he => ?_⟩
    by_cases hdown : e.2.button ∈ heldButtons t.activeModifiers
    · obtain ⟨e', he', hbutton⟩ := mem_heldButtons.mp hdown
      have hin := hback e he e' he' hbutton
      rwa [hs.entry_of_button (hold e' hin) he hbutton] at hin
    · exact (hmem e).mpr (.inr ⟨he, hdown⟩)

lemma Pool.mapItems (hpool : Pool m P) {entry : Option KeyItemList}
    (hentry : ∀ items ∈ entry, ∀ item ∈ items, P item ∧ item.generates = 0) (hs : Consistent P held s)
    {group : ℕ} {desired override : KeyModifierMask} {isAutoRepeat : Bool}
    (h : m.mapItems entry group desired override isAutoRepeat s = (some item, t)) :
    Consistent P held t ∧ (SameKeys s t ∧ t.currentState = s.currentState) ∧
      (entry = some [item] → t.activeModifiers.Perm s.activeModifiers) := by
  cases entry with
  | none => cases h
  | some items =>
    rw [KeyMap.mapItems] at h
    cases hlast : items.getLast? with
    | none =>
      rw [hlast] at h
      cases h
    | some keyItem =>
      rw [hlast] at h
      cases hkeys : m.keysForKeyItems desired override isAutoRepeat items group s with
      | none =>
        simp only [hkeys] at h
        cases h
      | some reached =>
        obtain ⟨newGroup, new⟩ := reached
        simp only [hkeys] at h
        obtain ⟨-, rfl⟩ := Prod.mk.inj h
        obtain ⟨hP, hnone⟩ := hentry items rfl keyItem (List.mem_of_getLast? hlast)
        have hnew := hpool.keysForKeyItems (hentry items rfl) hs hkeys
        obtain ⟨hrestored, hsame, hperm⟩ := hpool.restores hP hnone hs hnew
        have hone : some items = some [item] → Fresh s new := by
          intro heq
          obtain rfl := Option.some.inj heq
          obtain ⟨hP', hnone'⟩ := hentry [item] rfl item (List.mem_singleton_self _)
          rw [KeyMap.keysForKeyItems, Option.bind_eq_some_iff] at hkeys
          obtain ⟨⟨group₁, s₁⟩, hitem, hdone⟩ := hkeys
          obtain ⟨-, rfl⟩ := Prod.mk.inj (Option.some.inj hdone)
          exact (hpool.keysForKeyItem hP' hnone' hs hitem).2
        split_ifs
        · exact ⟨hrestored.push_group _ _ _, hsame, fun heq => hperm (hone heq)⟩
        · exact ⟨hrestored, hsame, fun heq => hperm (hone heq)⟩

end Restore

section Keys

variable {m : KeyMap} {s t : Synthesis} {item : KeyItem} {id : KeyID} {group : ℕ} {mask : KeyModifierMask}
  {isAutoRepeat : Bool}

def stateOf (modifiers : ModifierToKeys) : KeyModifierMask := modifiers.foldr (fun e state => e.1 ||| state) 0

/-- A finished map whose modifier keys are plain, and the keys that are down for the modifiers that are active. -/
structure PlainModifiers (m : KeyMap) (s : Synthesis) : Prop where
  finished : m.modifierKeys = setModifierKeys m.keyIDMap m.numGroups
  plain : ∀ item ∈ m.items, item.generates ≠ 0 → item.IsPlain
  keys : ∀ e ∈ s.activeModifiers, e.1 = e.2.generates ∧ e.2.IsPlain
  distinct : (s.activeModifiers.map fun e => e.2.button).Nodup
  agrees : s.currentState = stateOf s.activeModifiers
  unplayed : s.keystrokes = []

def keysAround (m : KeyMap) (s : Synthesis) : List KeyItem := m.items ++ s.activeModifiers.map Prod.snd

def keysFor (m : KeyMap) (id : KeyID) : List KeyItem :=
  (m.keyIDMap.filter fun e => decide (e.1 = id)).flatMap fun e => e.2.flatten.flatten

/-- The button of a modifier stands for it alone, in whatever group, also among the keys for the id. -/
def OneModifier (m : KeyMap) (s : Synthesis) (id : KeyID) : Prop :=
  ∀ i ∈ m.keysAround s, i.generates ≠ 0 → ∀ j ∈ m.keysAround s, j.generates ≠ 0 ∨ j ∈ m.keysFor id →
    i.button = j.button → i.generates = j.generates

instance (m : KeyMap) (s : Synthesis) (id : KeyID) : Decidable (OneModifier m s id) :=
  inferInstanceAs (Decidable (∀ i ∈ m.keysAround s, i.generates ≠ 0 → ∀ j ∈ m.keysAround s, _ → _))

def GeneratesNone (m : KeyMap) (id : KeyID) : Prop :=
  ∀ e ∈ m.keyIDMap, e.1 = id → ∀ item ∈ e.2.flatten.flatten, item.generates = 0

instance (m : KeyMap) (id : KeyID) : Decidable (GeneratesNone m id) :=
  inferInstanceAs (Decidable (∀ e ∈ m.keyIDMap, _))

lemma stateOf_getLsbD (modifiers : ModifierToKeys) (bit : ℕ) :
    (stateOf modifiers).getLsbD bit = true ↔ ∃ e ∈ modifiers, e.1.getLsbD bit = true := by
  induction modifiers with
  | nil => simp [stateOf]
  | cons e modifiers ih =>
    rw [stateOf, List.foldr_cons, BitVec.getLsbD_or, Bool.or_eq_true, ← stateOf, ih]
    simp

def Around (m : KeyMap) (s : Synthesis) (id : KeyID) (item : KeyItem) : Prop :=
  item ∈ m.keysAround s ∧ (item.generates ≠ 0 ∨ item ∈ m.keysFor id)

lemma PlainModifiers.consistent (h : PlainModifiers m s) (id : KeyID) :
    Consistent (m.Around s id) (heldButtons s.activeModifiers) s where
  keys e he := by
    obtain ⟨hkey, hplain⟩ := h.keys e he
    exact ⟨hkey, ⟨List.mem_append_right _ (List.mem_map_of_mem he), .inl hplain.ne_zero⟩, hplain⟩
  distinct := h.distinct
  agrees bit := by rw [h.agrees, stateOf_getLsbD]
  played item _ _ := by
    rw [h.unplayed]
    rfl

lemma PlainModifiers.pool (h : PlainModifiers m s) (hone : OneModifier m s id) : Pool m (m.Around s id) where
  finished := h.finished
  items item hitem hne := ⟨List.mem_append_left _ hitem, .inl hne⟩
  plain item hitem hne := by
    rcases List.mem_append.mp hitem.1 with hitem | hitem
    · exact h.plain item hitem hne
    · obtain ⟨e, he, rfl⟩ := List.mem_map.mp hitem
      exact (h.keys e he).2
  shared i j hi hj hbutton := by
    by_cases hne : i.generates = 0
    · by_cases hne' : j.generates = 0
      · rw [hne, hne']
      · exact (hone j hj.1 hne' i hi.1 hi.2 hbutton.symm).symm
    · exact hone i hi.1 hne j hj.1 hj.2 hbutton

lemma mem_of_foldl_best {cost : KeyItem → ℕ} {entries : KeyEntryList} {best : ℕ × Option KeyItemList}
    {items : KeyItemList}
    (h : (entries.foldl (fun (best : ℕ × Option KeyItemList) items =>
      match items.getLast? with
      | none => best
      | some item => if cost item < best.1 then (cost item, some items) else best) best).2 = some items) :
    items ∈ entries ∨ best.2 = some items := by
  induction entries generalizing best with
  | nil => exact .inr h
  | cons entry entries ih =>
    rw [List.foldl_cons] at h
    rcases ih h with hin | hbest
    · exact .inl (List.mem_cons_of_mem _ hin)
    · cases hlast : entry.getLast? with
      | none =>
        rw [hlast] at hbest
        exact .inr hbest
      | some item =>
        simp only [hlast] at hbest
        split_ifs at hbest
        · obtain rfl := Option.some.inj hbest
          exact .inl List.mem_cons_self
        · exact .inr hbest

lemma mem_of_findBestKey {entries : KeyEntryList} {desired : KeyModifierMask} {items : KeyItemList}
    (h : findBestKey entries desired = some items) : items ∈ entries := by
  rcases Option.or_eq_some_iff.mp h with hexact | ⟨-, hbest⟩
  · exact List.mem_of_find?_eq_some hexact
  · exact (mem_of_foldl_best hbest).resolve_right nofun

lemma mem_entryOf {items : KeyItemList} (h : m.entryOf id group mask = some items) :
    ∃ table, (id, table) ∈ m.keyIDMap ∧ items ∈ table.flatten := by
  obtain ⟨table, hlookup, hfound⟩ := Option.bind_eq_some_iff.mp h
  obtain ⟨offset, -, hpick⟩ := List.exists_of_findSome?_eq_some hfound
  have hmem : items ∈ table.getD (m.getEffectiveGroup group offset) [] := by
    split_ifs at hpick
    · exact List.mem_of_find?_eq_some hpick
    · exact mem_of_findBestKey hpick
  refine ⟨table, ?_, ?_⟩
  · obtain ⟨front, rest, hsplit, -⟩ := List.lookup_eq_some_iff.mp hlookup
    rw [hsplit]
    exact List.mem_append_right _ List.mem_cons_self
  · rw [List.getD_eq_getElem?_getD] at hmem
    cases hentries : table[m.getEffectiveGroup group offset]? with
    | none => simp [hentries] at hmem
    | some entries =>
      rw [hentries, Option.getD_some] at hmem
      exact List.mem_flatten.mpr ⟨entries, List.mem_of_getElem? hentries, hmem⟩

lemma mapKey_mapItems (hid : changesModifiers id = false)
    (h : m.mapKey id group mask isAutoRepeat s = (some item, t)) :
    ∃ desired override,
      m.mapItems (m.entryOf id group mask) group desired override isAutoRepeat s = (some item, t) := by
  obtain ⟨hset, hclear⟩ := not_or.mp (of_decide_eq_false hid)
  have hnext : id ≠ kKeyNextGroup := by
    rintro rfl
    cases h
  have hprev : id ≠ kKeyPrevGroup := by
    rintro rfl
    cases h
  rw [mapKey, if_neg hnext, if_neg hprev] at h
  by_cases hmodifier : isModifierID id = true
  · rw [if_pos hmodifier] at h
    rw [mapModifierKey, mapCharacterKey] at h
    exact ⟨mask, 0, by simpa [entryOf, hmodifier] using h⟩
  · rw [if_neg hmodifier, if_neg hset, if_neg hclear] at h
    by_cases hcommand : isCommand mask = true
    · rw [if_pos hcommand, mapCommandKey] at h
      exact ⟨_, _, by simpa [entryOf, hmodifier, hcommand] using h⟩
    · rw [if_neg hcommand, mapCharacterKey] at h
      exact ⟨mask, 0, by simpa [entryOf, hmodifier, hcommand] using h⟩

/-- The modifier keys that were down around a key are down after it, for the same modifiers. -/
theorem mapKey_restores (h : PlainModifiers m s) (hone : OneModifier m s id) (hid : changesModifiers id = false)
    (hnone : GeneratesNone m id) (hmap : m.mapKey id group mask isAutoRepeat s = (some item, t)) :
    (∀ i ∈ m.keysAround s, i.generates ≠ 0 →
      (i.button ∈ playAll t.keystrokes (heldButtons s.activeModifiers) ↔ i.button ∈ heldButtons s.activeModifiers)) ∧
    t.currentState = s.currentState ∧ SameKeys s t ∧
    (m.entryOf id group mask = some [item] → t.activeModifiers.Perm s.activeModifiers) := by
  have hpool := h.pool hone
  obtain ⟨desired, override, hitems⟩ := mapKey_mapItems hid hmap
  have hentry : ∀ items ∈ m.entryOf id group mask, ∀ item ∈ items, m.Around s id item ∧ item.generates = 0 := by
    intro items hitems item hitem
    obtain ⟨table, htable, hin⟩ := mem_entryOf hitems
    have hflat : item ∈ table.flatten.flatten := List.mem_flatten.mpr ⟨items, hin, hitem⟩
    have hfor : item ∈ m.keysFor id :=
      List.mem_flatMap.mpr ⟨_, List.mem_filter.mpr ⟨htable, decide_eq_true rfl⟩, hflat⟩
    exact ⟨⟨List.mem_append_left _ (List.mem_flatMap.mpr ⟨_, htable, hflat⟩), .inr hfor⟩, hnone _ htable rfl item hflat⟩
  obtain ⟨hdone, ⟨hsame, hstate⟩, hperm⟩ := hpool.mapItems hentry (h.consistent id) hitems
  refine ⟨fun i hi hne => ?_, hstate, hsame, hperm⟩
  have hP : m.Around s id i := ⟨hi, .inl hne⟩
  rw [hdone.played i hP (hpool.plain i hP hne), heldButtons, heldButtons, List.mem_toFinset, List.mem_toFinset]
  have hbuttons := (hsame.map Prod.snd).mem_iff (a := i.button)
  rwa [List.map_map, List.map_map] at hbuttons

end Keys

section Example

def holding (item : KeyItem) : Synthesis := ⟨[(item.generates, item)], item.generates, []⟩

def leftAlt : KeyItem := ⟨kKeyAltL, 0, 64, 0, 0, keyModifierAlt, false, false, 0⟩

def rightAlt : KeyItem := ⟨kKeyAltR, 0, 108, 0, 0, keyModifierAlt, false, false, 0⟩

def altGr : KeyItem := ⟨kKeyAltGr, 1, 108, 0, 0, keyModifierAltGr, false, false, 0⟩

def atSign : KeyItem := ⟨0x40, 1, 24, keyModifierAltGr, keyModifierAltGr, 0, false, false, 0⟩

def leftAltMap : KeyMap :=
  finish ⟨[(kKeyAltL, [[[leftAlt]], [[{ leftAlt with group := 1 }]]]), (kKeyAltGr, [[], [[altGr]]]),
    (0x40, [[], [[atSign]]])], 0, [], []⟩

theorem mapKey_restores_leftAlt :
    (∀ i ∈ leftAltMap.keysAround (holding leftAlt), i.generates ≠ 0 →
      (i.button ∈ playAll (leftAltMap.mapKey 0x40 0 0 false (holding leftAlt)).2.keystrokes
          (heldButtons (holding leftAlt).activeModifiers) ↔
        i.button ∈ heldButtons (holding leftAlt).activeModifiers)) ∧
    (leftAltMap.mapKey 0x40 0 0 false (holding leftAlt)).2.currentState = (holding leftAlt).currentState ∧
    SameKeys (holding leftAlt) (leftAltMap.mapKey 0x40 0 0 false (holding leftAlt)).2 ∧
    (leftAltMap.entryOf 0x40 0 0 = some [atSign] →
      (leftAltMap.mapKey 0x40 0 0 false (holding leftAlt)).2.activeModifiers.Perm
        (holding leftAlt).activeModifiers) := by
  refine mapKey_restores ⟨?_, ?_, ?_, ?_, ?_, ?_⟩ ?_ ?_ ?_ (Prod.ext ?_ rfl)
  all_goals decide

def twoLayouts : KeyMap :=
  finish ⟨[(kKeyAltL, [[[leftAlt]], [[{ leftAlt with group := 1 }]]]), (kKeyAltR, [[[rightAlt]]]),
    (kKeyAltGr, [[], [[altGr]]]), (0x40, [[], [[atSign]]])], 0, [], []⟩

def leftShift : KeyItem := ⟨kKeyShiftL, 0, 50, 0, 0, keyModifierShift, false, false, 0⟩

def deadAcute : KeyItem := ⟨0xB4, 1, 21, 0, keyModifierShift, 0, true, false, 0⟩

def capitalE : KeyItem := ⟨0x45, 1, 26, keyModifierShift, keyModifierShift, 0, false, false, 0⟩

def composed : KeyMap :=
  finish ⟨[(kKeyShiftL, [[[leftShift]], [[{ leftShift with group := 1 }]]]),
    (0xC9, [[], [[deadAcute, capitalE]]])], 0, [], []⟩

def letterControl : KeyItem := ⟨0x61, 0, 38, 0, 0, keyModifierControl, false, false, 0⟩

def letterMap : KeyMap := finish ⟨[(kKeyShiftL, [[[leftShift]]]), (0x61, [[[letterControl]]])], 0, [], []⟩

/-- A button that is another modifier in the group of the key is released, and the other modifier remains. The key for
shift is noted with the group of the key that was composed, and a letter that is a modifier remains active. -/
theorem mapKey_changes_modifiers :
    (¬ ∀ m s id group mask isAutoRepeat item t, PlainModifiers m s → changesModifiers id = false →
      isModifierID id = false → GeneratesNone m id → m.mapKey id group mask isAutoRepeat s = (some item, t) →
      item.button ∉ heldButtons s.activeModifiers →
      heldButtons s.activeModifiers ⊆ playAll t.keystrokes (heldButtons s.activeModifiers) ∨
        t.currentState = s.currentState) ∧
    (¬ ∀ m s id group mask isAutoRepeat item t, PlainModifiers m s → OneModifier m s id → changesModifiers id = false →
      isModifierID id = false → GeneratesNone m id → m.mapKey id group mask isAutoRepeat s = (some item, t) →
      item.button ∉ heldButtons s.activeModifiers → t.activeModifiers.Perm s.activeModifiers) ∧
    ¬ ∀ m s id group mask isAutoRepeat item t, PlainModifiers m s → OneModifier m s id → changesModifiers id = false →
      isModifierID id = false → m.mapKey id group mask isAutoRepeat s = (some item, t) →
      item.button ∉ heldButtons s.activeModifiers → t.currentState = s.currentState := by
  refine ⟨fun h => ?_, fun h => ?_, fun h => ?_⟩
  · have hkept := h twoLayouts (holding rightAlt) 0x40 0 0 false atSign _ (by constructor <;> decide)
      (by decide) (by decide) (by decide) (Prod.ext (by decide) rfl) (by decide)
    exact absurd hkept (by decide)
  · have hkept := h composed (holding leftShift) 0xC9 0 keyModifierShift false capitalE _
      (by constructor <;> decide) (by decide) (by decide) (by decide)
      (by decide) (Prod.ext (by decide) rfl) (by decide)
    exact absurd hkept (by decide)
  · have hkept := h letterMap (holding leftShift) 0x61 0 0 false letterControl _ (by constructor <;> decide)
      (by decide) (by decide) (by decide) (Prod.ext (by decide) rfl) (by decide)
    exact absurd hkept (by decide)

end Example

end InputLeap.Keys.KeyMap
