import InputLeap.Gui.EnteringNames
import InputLeap.Server.RuleLines

/-! The computers that hotkeys name. Nothing keeps the names in the actions when a computer gets another name, loses one
or is removed, so they are known only as long as no action uses a name that goes. -/

namespace InputLeap.Gui

open InputLeap.Lib InputLeap.Lib.Text

namespace KeyAction

variable (a : KeyAction)

def screens : List Name := if a.keySequence.isMouseButton ∨ a.haveScreens = false then [] else a.typeScreenNames

def names : List Name :=
  match a.type with
  | .keyDown | .keyUp | .keystroke => a.screens
  | .switchToScreen => if a.switchScreenName = [] then [] else [a.switchScreenName]
  | _ => []

end KeyAction

section Server

variable (c : Config)

def KeyAction.ScreensTaken (a : KeyAction) : Prop :=
  match a.type with
  | .keyDown | .keyUp | .keystroke =>
    a.screens ≠ [] → ∃ set, c.parseScreens [] .empty ([':'].intercalate a.screens) = .ok set
  | .switchToScreen => ∃ screen, c.screenArg (fun _ => "unknown screen name in switchToScreen") a.switchScreenName = .ok screen
  | _ => True

variable {c}

lemma KeyAction.screensTaken {a : KeyAction} (hinv : c.StoredInv) (h : ∀ n ∈ a.names, c.isScreen n = true) :
    a.ScreensTaken c := by
  rw [names] at h
  rw [ScreensTaken]
  cases htype : a.type
  all_goals rw [htype] at h
  case keyDown | keyUp | keystroke => exact fun hne => ⟨_, hinv.parseScreens_intercalate h hne⟩
  case switchToScreen =>
    dsimp only at h ⊢
    rw [Config.screenArg]
    split_ifs with hscreen hne
    · exact ⟨_, rfl⟩
    · rw [if_neg hne] at h
      exact absurd (h _ List.mem_cons_self) hscreen
    · exact ⟨_, rfl⟩
  all_goals trivial

end Server

namespace LayoutModel

section Hotkeys

variable (qt : Qt) (lower : ℕ → ℕ) (m : LayoutModel)

def addHotkey (keys : KeySequence) : LayoutModel :=
  if keys.isValid = false ∨ m.hotkeys.any fun h => decide (h.keySequence.toString lower = keys.toString lower) then m
  else save qt { m with hotkeys := m.hotkeys ++ [⟨keys, []⟩] }

def addAction (hotkeyIndex : ℕ) (action : KeyAction) : LayoutModel :=
  if hotkeyIndex < m.hotkeys.length then
    save qt { m with hotkeys := m.hotkeys.modify hotkeyIndex fun h => { h with actions := h.actions ++ [action] } }
  else m

def removeHotkey (index : ℕ) : LayoutModel :=
  if index < m.hotkeys.length then save qt { m with hotkeys := m.hotkeys.eraseIdx index } else m

def removeAction (hotkeyIndex actionIndex : ℕ) : LayoutModel :=
  match m.hotkeys[hotkeyIndex]? with
  | none => m
  | some hotkey =>
    if actionIndex < hotkey.actions.length then
      save qt { m with hotkeys := m.hotkeys.set hotkeyIndex { hotkey with actions := hotkey.actions.eraseIdx actionIndex } }
    else m

end Hotkeys

end LayoutModel

inductive HotkeyOp
  | addScreen (name : Name) (x y : ℤ)
  | removeScreen (index : ℕ)
  | renameScreen (index : ℕ) (name : Name)
  | setServerName (name : Name)
  | setScreenSettings (index : ℕ) (settings : LayoutModel.ScreenSettings)
  | addHotkey (keys : KeySequence)
  | addAction (hotkeyIndex : ℕ) (action : KeyAction)
  | removeHotkey (index : ℕ)
  | removeAction (hotkeyIndex actionIndex : ℕ)

namespace LayoutModel

section Runs

variable (qt : Qt) (lower : ℕ → ℕ) (m : LayoutModel)

def edit : HotkeyOp → LayoutModel
  | .addScreen name x y => (m.addScreen qt name x y).1
  | .removeScreen index => m.removeScreen qt index
  | .renameScreen index name => (m.renameScreen qt index name).1
  | .setServerName name => m.setServerName qt name
  | .setScreenSettings index settings => (m.setScreenSettings qt index settings).1
  | .addHotkey keys => m.addHotkey qt lower keys
  | .addAction hotkeyIndex action => m.addAction qt hotkeyIndex action
  | .removeHotkey index => m.removeHotkey qt index
  | .removeAction hotkeyIndex actionIndex => m.removeAction qt hotkeyIndex actionIndex

def nextEdit (op : HotkeyOp) : Option LayoutModel := some (m.edit qt lower op)

def actions : List KeyAction := m.hotkeys.flatMap Hotkey.actions

def Knows (name : Name) : Prop := ∃ l ∈ m.labels, ∃ n ∈ l.names, caseless n = caseless name

instance (name : Name) : Decidable (m.Knows name) := inferInstanceAs (Decidable (∃ l ∈ m.labels, _))

def HotkeysKnown : Prop := ∀ a ∈ m.actions, ∀ n ∈ a.names, m.Knows n

instance : Decidable m.HotkeysKnown := inferInstanceAs (Decidable (∀ a ∈ m.actions, _))

def Chosen : HotkeyOp → Prop
  | .addAction _ action => ∀ n ∈ action.names, m.Knows n
  | _ => True

def renamed (index : Option ℕ) (new : Option Name) : List Name :=
  match index.bind (m.screens[·]?), new with
  | some s, some name => if caseless s.name = caseless name then [] else [s.name]
  | _, _ => []

def dropped : HotkeyOp → List Name
  | .removeScreen index => (m.screens[index]?).elim [] fun s => s.label.names
  | .renameScreen index name => m.renamed (some index) (m.newName qt (.renameScreen index name))
  | .setServerName name => m.renamed (m.indexOf qt m.serverName) (m.newName qt (.setServerName name))
  | .setScreenSettings index settings =>
    (m.screens[index]?).elim [] fun s =>
      s.aliases.filter fun a => (newAliases qt settings s).all fun b => decide (caseless b ≠ caseless a)
  | _ => []

def HotkeysKept (op : HotkeyOp) : Prop :=
  m.Chosen op ∧ ∀ d ∈ m.dropped qt op, ∀ a ∈ m.actions, ∀ n ∈ a.names, caseless d ≠ caseless n

instance : ∀ (m : LayoutModel) (op : HotkeyOp), Decidable (m.Chosen op)
  | m, .addAction _ action => inferInstanceAs (Decidable (∀ n ∈ action.names, m.Knows n))
  | _, .addScreen .. | _, .removeScreen _ | _, .renameScreen .. | _, .setServerName _ | _, .setScreenSettings ..
  | _, .addHotkey _ | _, .removeHotkey _ | _, .removeAction .. => .isTrue trivial

instance (op : HotkeyOp) : Decidable (m.HotkeysKept qt op) := inferInstanceAs (Decidable (_ ∧ _))

end Runs

section Steps

variable {qt : Qt} {lower : ℕ → ℕ} {m m' : LayoutModel} {n : Name} {index : ℕ} {s : ScreenConfig}

lemma Knows.congr (h : m.Knows n) (hlabels : m'.labels = m.labels) : m'.Knows n := by
  rw [Knows, hlabels]
  exact h

lemma Knows.set {l : Label} (h : m.Knows n) (hs : m.screens[index]? = some s) (hlabels : m'.labels = m.labels.set index l)
    (hkept : ∀ k ∈ s.label.names, caseless k = caseless n → ∃ k ∈ l.names, caseless k = caseless n) : m'.Knows n := by
  obtain ⟨l', hl', k, hk, hsame⟩ := h
  obtain ⟨i, hi⟩ := List.mem_iff_getElem?.mp hl'
  have hlen : index < m.labels.length := by
    rw [labels, List.length_map]
    exact (List.getElem?_eq_some_iff.mp hs).1
  rw [Knows, hlabels]
  by_cases hindex : i = index
  · subst hindex
    rw [labels, List.getElem?_map, hs] at hi
    obtain rfl : s.label = l' := Option.some.inj hi
    obtain ⟨k', hk', hsame'⟩ := hkept k hk hsame
    exact ⟨l, List.mem_set hlen l, k', hk', hsame'⟩
  · refine ⟨l', List.mem_iff_getElem?.mpr ⟨i, ?_⟩, k, hk, hsame⟩
    rw [List.getElem?_set_ne (Ne.symm hindex)]
    exact hi

lemma Knows.renamed {new : Name} (h : m.Knows n) (hs : m.screens[index]? = some s)
    (hlabels : m'.labels = m.labels.set index { s.label with name := new })
    (hkept : ∀ d ∈ m.renamed (some index) (some new), caseless d ≠ caseless n) : m'.Knows n := by
  apply h.set hs hlabels
  intro k hk hsame
  rcases List.mem_cons.mp hk with rfl | hk
  · refine ⟨new, List.mem_cons_self, ?_⟩
    simp only [LayoutModel.renamed, Option.bind_some, hs] at hkept
    split_ifs at hkept with hcase
    · exact hcase.symm.trans hsame
    · exact absurd hsame (hkept _ List.mem_cons_self)
  · exact ⟨k, List.mem_cons_of_mem _ hk, hsame⟩

lemma Knows.edit {op : HotkeyOp} (h : m.Knows n) (hkept : ∀ d ∈ m.dropped qt op, caseless d ≠ caseless n) :
    (m.edit qt lower op).Knows n := by
  cases op with
  | addScreen name x y =>
    rcases @addScreen_cases qt m name x y with hsame | ⟨-, -, s, -, heq⟩
    · rw [LayoutModel.edit, hsame]
      exact h
    · obtain ⟨l, hl, hn⟩ := h
      rw [LayoutModel.edit, heq, Knows, labels_save, labels_append]
      exact ⟨l, List.mem_append_left _ hl, hn⟩
  | removeScreen index =>
    rw [LayoutModel.edit, LayoutModel.removeScreen]
    split_ifs with hlen
    · obtain ⟨l, hl, k, hk, hsame⟩ := h
      obtain ⟨s, hs, rfl⟩ := List.mem_map.mp hl
      have hgone : (m.screens[index]?).elim [] (fun s => s.label.names) = (m.screens[index]).label.names := by
        rw [List.getElem?_eq_getElem hlen]
        rfl
      have hother : s ∈ m.screens.eraseIdx index := by
        rcases List.mem_cons.mp ((List.getElem_cons_eraseIdx_perm hlen).mem_iff.mpr hs) with rfl | hother
        · exact absurd hsame (hkept k (by rw [dropped, hgone]; exact hk))
        · exact hother
      rw [Knows, labels_save]
      exact ⟨_, List.mem_map_of_mem hother, k, hk, hsame⟩
    · exact h
  | renameScreen index name =>
    rcases @renameScreen_cases qt m index name with hsame | ⟨s, hs, hnew, m'', heq, hlabels, -⟩
    · rw [LayoutModel.edit, hsame]
      exact h
    · rw [LayoutModel.edit, heq]
      rw [dropped, hnew] at hkept
      exact (h.renamed hs hlabels hkept).congr (labels_save _)
  | setServerName name =>
    rcases @setServerName_cases qt m name with ⟨hlabels, -⟩ | ⟨i, s, hi, hs, hnew, m'', heq, hlabels, -⟩
    · exact h.congr hlabels
    · rw [LayoutModel.edit, heq]
      rw [dropped, hi, hnew] at hkept
      exact (h.renamed hs hlabels hkept).congr (labels_save _)
  | setScreenSettings index settings =>
    rcases @setScreenSettings_cases qt m index settings with hsame | ⟨s, hs, m'', heq, hlabels, -⟩
    · rw [LayoutModel.edit, hsame]
      exact h
    · rw [LayoutModel.edit, heq]
      refine (h.set hs hlabels fun k hk hsame => ?_).congr (labels_save _)
      rcases List.mem_cons.mp hk with rfl | hk
      · exact ⟨s.name, List.mem_cons_self, hsame⟩
      · by_contra hlost
        push Not at hlost
        refine hkept k ?_ hsame
        rw [dropped, hs]
        refine List.mem_filter.mpr ⟨hk, List.all_eq_true.mpr fun b hb => decide_eq_true ?_⟩
        intro hcase
        exact hlost b (List.mem_cons_of_mem _ hb) (hcase.trans hsame)
  | addHotkey keys =>
    rw [LayoutModel.edit, LayoutModel.addHotkey]
    split_ifs
    · exact h
    · exact h.congr (labels_save _)
  | addAction hotkeyIndex action =>
    rw [LayoutModel.edit, LayoutModel.addAction]
    split_ifs
    · exact h.congr (labels_save _)
    · exact h
  | removeHotkey index =>
    rw [LayoutModel.edit, LayoutModel.removeHotkey]
    split_ifs
    · exact h.congr (labels_save _)
    · exact h
  | removeAction hotkeyIndex actionIndex =>
    rw [LayoutModel.edit, LayoutModel.removeAction]
    split
    · exact h
    · split_ifs
      · exact h.congr (labels_save _)
      · exact h

lemma mem_actions {a : KeyAction} : a ∈ m.actions ↔ ∃ h ∈ m.hotkeys, a ∈ h.actions := List.mem_flatMap

section Actions

variable {a : KeyAction}

lemma actions_congr {m' : LayoutModel} (h : m'.hotkeys = m.hotkeys) : m'.actions = m.actions := by
  rw [actions, h, actions]

lemma hotkeys_addScreen (name : Name) (x y : ℤ) : (m.addScreen qt name x y).1.hotkeys = m.hotkeys := by
  rcases @addScreen_cases qt m name x y with heq | ⟨-, -, s, -, heq⟩
  · rw [heq]
  · rw [heq, hotkeys_save]
    rfl

lemma hotkeys_removeScreen (index : ℕ) : (m.removeScreen qt index).hotkeys = m.hotkeys := by
  rw [LayoutModel.removeScreen]
  split_ifs
  · exact hotkeys_save _
  · rfl

lemma hotkeys_renameScreen (index : ℕ) (name : Name) : (m.renameScreen qt index name).1.hotkeys = m.hotkeys := by
  rcases @renameScreen_cases qt m index name with heq | ⟨s, -, -, m'', heq, -, hhotkeys⟩
  · rw [heq]
  · rw [heq, hotkeys_save, hhotkeys]

lemma hotkeys_setServerName (name : Name) : (m.setServerName qt name).hotkeys = m.hotkeys := by
  rcases @setServerName_cases qt m name with ⟨-, -, hhotkeys⟩ | ⟨i, s, -, -, -, m'', heq, -, hhotkeys⟩
  · exact hhotkeys
  · rw [heq, hotkeys_save, hhotkeys]

lemma mem_actions_addHotkey {keys : KeySequence} (ha : a ∈ (m.edit qt lower (.addHotkey keys)).actions) : a ∈ m.actions := by
  rw [LayoutModel.edit, LayoutModel.addHotkey] at ha
  split_ifs at ha
  · exact ha
  · rw [actions, hotkeys_save, List.flatMap_append, List.mem_append] at ha
    exact ha.resolve_right (by simp)

lemma mem_actions_addAction {hotkeyIndex : ℕ} {action : KeyAction}
    (ha : a ∈ (m.edit qt lower (.addAction hotkeyIndex action)).actions) : a ∈ m.actions ∨ a = action := by
  rw [LayoutModel.edit, LayoutModel.addAction] at ha
  split_ifs at ha
  · rw [actions, hotkeys_save] at ha
    obtain ⟨h, hh, ha⟩ := List.mem_flatMap.mp ha
    obtain ⟨i, hi⟩ := List.mem_iff_getElem?.mp hh
    rw [List.getElem?_modify] at hi
    obtain ⟨h', hi', rfl⟩ := Option.map_eq_some_iff.mp hi
    have hmem := List.mem_of_getElem? hi'
    split_ifs at ha
    · rcases List.mem_append.mp ha with ha | ha
      · exact .inl (mem_actions.mpr ⟨h', hmem, ha⟩)
      · exact .inr (List.mem_singleton.mp ha)
    · exact .inl (mem_actions.mpr ⟨h', hmem, ha⟩)
  · exact .inl ha

lemma mem_actions_removeHotkey {index : ℕ} (ha : a ∈ (m.edit qt lower (.removeHotkey index)).actions) : a ∈ m.actions := by
  rw [LayoutModel.edit, LayoutModel.removeHotkey] at ha
  split_ifs at ha
  · rw [actions, hotkeys_save] at ha
    obtain ⟨h, hh, ha⟩ := List.mem_flatMap.mp ha
    exact mem_actions.mpr ⟨h, List.mem_of_mem_eraseIdx hh, ha⟩
  · exact ha

lemma mem_actions_removeAction {hotkeyIndex actionIndex : ℕ}
    (ha : a ∈ (m.edit qt lower (.removeAction hotkeyIndex actionIndex)).actions) : a ∈ m.actions := by
  rw [LayoutModel.edit, LayoutModel.removeAction] at ha
  split at ha
  · exact ha
  · rename_i h hh
    split_ifs at ha
    · rw [actions, hotkeys_save] at ha
      obtain ⟨h', hh', ha⟩ := List.mem_flatMap.mp ha
      rcases List.mem_or_eq_of_mem_set hh' with hmem | rfl
      · exact mem_actions.mpr ⟨h', hmem, ha⟩
      · exact mem_actions.mpr ⟨h, List.mem_of_getElem? hh, List.mem_of_mem_eraseIdx ha⟩
    · exact ha

lemma actions_edit {op : HotkeyOp} (ha : a ∈ (m.edit qt lower op).actions) :
    a ∈ m.actions ∨ ∃ hotkeyIndex, op = .addAction hotkeyIndex a := by
  cases op with
  | addScreen name x y => exact .inl (actions_congr (hotkeys_addScreen name x y) ▸ ha)
  | removeScreen index => exact .inl (actions_congr (hotkeys_removeScreen index) ▸ ha)
  | renameScreen index name => exact .inl (actions_congr (hotkeys_renameScreen index name) ▸ ha)
  | setServerName name => exact .inl (actions_congr (hotkeys_setServerName name) ▸ ha)
  | setScreenSettings index settings =>
    have hhotkeys : (m.edit qt lower (.setScreenSettings index settings)).hotkeys = m.hotkeys := by
      rw [LayoutModel.edit]
      rcases @setScreenSettings_cases qt m index settings with heq | ⟨s, -, m'', heq, -, hhotkeys⟩
      · rw [heq]
      · rw [heq, hotkeys_save, hhotkeys]
    exact .inl (actions_congr hhotkeys ▸ ha)
  | addHotkey keys => exact .inl (mem_actions_addHotkey ha)
  | addAction hotkeyIndex action =>
    refine (mem_actions_addAction ha).imp_right fun haction => ?_
    rw [haction]
    exact ⟨hotkeyIndex, rfl⟩
  | removeHotkey index => exact .inl (mem_actions_removeHotkey ha)
  | removeAction hotkeyIndex actionIndex => exact .inl (mem_actions_removeAction ha)

end Actions

lemma HotkeysKnown.edit {op : HotkeyOp} (h : m.HotkeysKnown) (hkept : m.HotkeysKept qt op) :
    (m.edit qt lower op).HotkeysKnown := by
  obtain ⟨hchosen, hdropped⟩ := hkept
  intro a ha n hn
  rcases actions_edit ha with hmem | ⟨hotkeyIndex, rfl⟩
  · exact (h a hmem n hn).edit fun d hd => hdropped d hd a hmem n hn
  · exact (hchosen n hn).edit fun d hd => nomatch hd

end Steps

lemma isScreen_named {m : LayoutModel} (h : Readable m.labels) {n : Name} (hn : m.Knows n) : m.named.isScreen n = true := by
  obtain ⟨l, hl, k, hk, hsame⟩ := hn
  obtain ⟨s, hs, rfl⟩ := List.mem_map.mp hl
  apply Config.isScreen_of_withNames
  rcases List.mem_cons.mp hk with rfl | hk
  · obtain ⟨hscreen, -⟩ := (namesFit h).screen hs
    left
    rw [Config.isScreen, OrdMap.contains, OrdMap.find?, ← hsame]
    exact hscreen
  · refine .inr ⟨(k, s.name), List.mem_flatMap.mpr ⟨(s.name, s.aliases), ?_, ?_⟩, hsame⟩
    · exact List.mem_map_of_mem hs
    · exact List.mem_map_of_mem hk

theorem hotkeys_known (qt : Qt) (lower : ℕ → ℕ) (resolves : Name → Bool) (m : LayoutModel)
    (hrun : Reachable HotkeysKnown (nextEdit qt lower) (HotkeysKept qt) m) :
    m.HotkeysKnown ∧ (Readable m.labels → ∃ file, readConfig resolves (unlines m.nameSections) = .ok file ∧
      ∀ a ∈ m.actions, a.ScreensTaken file.config) := by
  have hknown : m.HotkeysKnown := by
    refine hrun.invariant (fun _ h => h) fun m op t h hkept hnext => ?_
    rw [← Option.some.inj hnext]
    exact h.edit hkept
  refine ⟨hknown, fun hreadable => ?_⟩
  obtain ⟨file, hfile, hconfig⟩ := readConfig_nameSections resolves hreadable
  refine ⟨file, hfile, fun a ha => ?_⟩
  apply KeyAction.screensTaken (readConfig_storedInv hfile)
  intro n hn
  rw [hconfig]
  exact isScreen_named hreadable (hknown a ha n hn)

def recordedA : KeySequence := ⟨[0x41], 0, true⟩

def switchTo (name : Name) : KeyAction := { KeyAction.new with type := .switchToScreen, switchScreenName := name }

def switching (name : Name) : List HotkeyOp :=
  [.addScreen ['a'] 0 0, .addScreen ['b'] 1920 0, .addHotkey recordedA, .addAction 0 (switchTo ['b']), .renameScreen 1 name]

theorem hotkeys_known_spelled : ∃ m : LayoutModel, m.actions = [switchTo ['b']] ∧ m.HotkeysKnown ∧
    (Readable m.labels → ∃ file, readConfig (fun _ => true) (unlines m.nameSections) = .ok file ∧
      ∀ a ∈ m.actions, a.ScreensTaken file.config) := by
  have hreached : ∃ m, Reachable HotkeysKnown (nextEdit asciiQt id) (HotkeysKept asciiQt) m ∧ m.actions = [switchTo ['b']] :=
    Reachable.exists_of_run (s := empty none) (by decide) (switching ['B']) (by decide)
  obtain ⟨m, hrun, hactions⟩ := hreached
  exact ⟨m, hactions, hotkeys_known asciiQt id (fun _ => true) m hrun⟩

/-- The action keeps the name that the computer had. -/
theorem hotkeys_unknown : ¬∀ (m : LayoutModel), Reachable HotkeysKnown (nextEdit asciiQt id) Chosen m → m.HotkeysKnown := by
  intro h
  obtain ⟨m, hrun, hlost⟩ : ∃ m, Reachable HotkeysKnown (nextEdit asciiQt id) Chosen m ∧ ¬m.HotkeysKnown :=
    Reachable.exists_of_run (s := empty none) (by decide) (switching ['c']) (by decide)
  exact hlost (h m hrun)

end LayoutModel

end InputLeap.Gui
