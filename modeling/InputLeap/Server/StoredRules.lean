import InputLeap.Keys.Keystrokes
import InputLeap.Server.ReadInvariants

/-! What holds of every rule that is read: its modifiers have names, and its screens are those of the configuration. -/

namespace InputLeap

open InputLeap.Lib InputLeap.Lib.Text

structure ValidKeystroke (key : KeyID) (mask : KeyModifierMask) : Prop where
  named : KeyNames.NamedMask mask
  nonempty : key ≠ KeyNames.kKeyNone ∨ mask ≠ 0

structure ValidButton (button : ButtonID) (mask : KeyModifierMask) : Prop where
  named : KeyNames.NamedMask mask
  nonzero : button ≠ 0

namespace Config

def canonicalNames (c : Config) : List Name := c.nameToCanonicalName.entries.map Prod.snd

def RuleName (c : Config) (name : Name) : Prop := name ∈ c.canonicalNames

def RuleScreens (c : Config) (screens : Name) : Prop :=
  ∃ names : ScreenSet, names.join = screens ∧ ∀ e ∈ names.entries, e.1 = ['*'] ∨ e.1 ∈ c.canonicalNames

end Config

namespace Rule

def actions (r : Rule) : List Action := r.activateActions ++ r.deactivateActions

lemma mem_adoptAction {r : Rule} {action a : Action} {onActivation : Bool}
    (h : a ∈ (r.adoptAction action onActivation).actions) : a = action ∨ a ∈ r.actions := by
  rw [adoptAction] at h
  split_ifs at h
  · simp only [actions, List.mem_append, List.mem_singleton] at h ⊢
    tauto
  · simp only [actions, List.mem_append, List.mem_singleton] at h ⊢
    tauto

lemma condition_adoptAction (r : Rule) (action : Action) (onActivation : Bool) :
    (r.adoptAction action onActivation).condition = r.condition := by
  rw [adoptAction]
  split_ifs
  · rfl
  · rfl

end Rule

def Condition.Stored (c : Config) : Condition → Prop
  | keystroke key mask => ValidKeystroke key mask
  | mouseButton button mask => ValidButton button mask
  | screenConnected screen => c.RuleName screen

def Action.Stored (c : Config) : Action → Prop
  | lockCursorToScreen _ => True
  | switchToScreen screen => c.RuleName screen
  | toggleScreen => True
  | switchInDirection dir => dir ≠ .noDirection
  | keyboardBroadcast _ screens => c.RuleScreens screens
  | keystroke key mask screens _ => ValidKeystroke key mask ∧ c.RuleScreens screens
  | mouseButton button mask _ => ValidButton button mask

structure Rule.Stored (c : Config) (r : Rule) : Prop where
  condition : ∃ condition, r.condition = some condition ∧ condition.Stored c
  actions : ∀ a ∈ r.actions, a.Stored c

section Parsing

variable {c d : Config}

lemma namedMask_zero : KeyNames.NamedMask 0 := Nat.two_pow_pos 6

lemma parseKeystroke_valid {text : Name} {key : KeyID} {mask : KeyModifierMask}
    (h : parseKeystroke text = .ok (key, mask)) : ValidKeystroke key mask := by
  rw [parseKeystroke] at h
  split at h
  · nomatch h
  · rename_i hmodifiers
    split at h
    · nomatch h
    · split_ifs at h with hempty
      cases h
      exact ⟨KeyNames.takeModifiers_named hmodifiers namedMask_zero, not_and_or.mp hempty⟩

lemma parseMouse_valid {text : Name} {button : ButtonID} {mask : KeyModifierMask}
    (h : parseMouse text = .ok (button, mask)) : ValidButton button mask := by
  rw [parseMouse] at h
  split at h
  · nomatch h
  · rename_i hmodifiers
    dsimp only at h
    split_ifs at h with hrest hbutton
    cases h
    exact ⟨KeyNames.takeModifiers_named hmodifiers namedMask_zero, fun hzero => hbutton (.inr hzero)⟩

lemma mem_canonicalNames {name : Name} (h : c.getCanonicalName name ≠ []) : c.getCanonicalName name ∈ c.canonicalNames := by
  obtain ⟨n, hmem⟩ := Config.getCanonicalName_mem h
  exact List.mem_map.mpr ⟨_, hmem, rfl⟩

lemma screenArg_ok {error : Name → String} {arg screen : Name} (h : c.screenArg error arg = .ok screen)
    (hlast : [arg].getLast? ≠ some []) : c.RuleName screen := by
  rw [Config.screenArg] at h
  split_ifs at h with hscreen hne
  · cases h
    obtain ⟨n, -, hmem⟩ := Config.mem_of_isScreen hscreen
    exact List.mem_map.mpr ⟨_, hmem, rfl⟩
  · exact absurd (congrArg some (not_not.mp hne)) hlast

lemma addNamed_ok {screens screens' : ScreenSet} {part : Name} (h : c.addNamed screens part = .ok screens')
    (hscreens : ∀ e ∈ screens.entries, e.1 = ['*'] ∨ e.1 ∈ c.canonicalNames) :
    ∀ e ∈ screens'.entries, e.1 = ['*'] ∨ e.1 ∈ c.canonicalNames := by
  rw [Config.addNamed] at h
  split_ifs at h with hall hempty hunknown
  · cases h
    intro e he
    rcases OrdMap.mem_insertEntry he with rfl | he
    · exact .inl rfl
    · exact hscreens e he
  · cases h
    exact hscreens
  · cases h
    intro e he
    rcases OrdMap.mem_insertEntry he with rfl | he
    · exact .inr (mem_canonicalNames hunknown)
    · exact hscreens e he

lemma parseScreens_ok {part text : Name} {screens screens' : ScreenSet}
    (h : c.parseScreens part screens text = .ok screens')
    (hscreens : ∀ e ∈ screens.entries, e.1 = ['*'] ∨ e.1 ∈ c.canonicalNames) :
    ∀ e ∈ screens'.entries, e.1 = ['*'] ∨ e.1 ∈ c.canonicalNames := by
  induction text generalizing part screens with
  | nil => exact addNamed_ok h hscreens
  | cons ch text ih =>
    rw [Config.parseScreens] at h
    split_ifs at h
    · obtain ⟨screens'', hadd, h⟩ := bind_eq_ok.mp h
      exact ih h (addNamed_ok hadd hscreens)
    · exact ih h hscreens

lemma ruleScreens_of_parseScreens {text : Name} {screens : ScreenSet} (h : c.parseScreens [] .empty text = .ok screens) :
    c.RuleScreens screens.join := ⟨screens, rfl, parseScreens_ok h (by intro e he; nomatch he)⟩

lemma ruleScreens_empty : c.RuleScreens [] := ⟨.empty, rfl, by intro e he; nomatch he⟩

lemma parseCondition_stored {name : Name} {args : List Name} {condition : Condition}
    (h : c.parseCondition name args = .ok condition) (hlast : args.getLast? ≠ some []) : condition.Stored c := by
  unfold Config.parseCondition at h
  split_ifs at h
  · split at h
    · obtain ⟨⟨key, mask⟩, hparse, h⟩ := bind_eq_ok.mp h
      cases h
      exact parseKeystroke_valid hparse
    · nomatch h
  · split at h
    · obtain ⟨⟨button, mask⟩, hparse, h⟩ := bind_eq_ok.mp h
      cases h
      exact parseMouse_valid hparse
    · nomatch h
  · split at h
    · obtain ⟨screen, hparse, h⟩ := bind_eq_ok.mp h
      cases h
      exact screenArg_ok hparse hlast
    · nomatch h

lemma keystrokeArgs_ok {args : List Name} {key : KeyID} {mask : KeyModifierMask} {screens : Name}
    (h : c.keystrokeArgs args = .ok (key, mask, screens)) : ValidKeystroke key mask ∧ c.RuleScreens screens := by
  unfold Config.keystrokeArgs at h
  split at h
  · obtain ⟨⟨key', mask'⟩, hparse, h⟩ := bind_eq_ok.mp h
    cases h
    exact ⟨parseKeystroke_valid hparse, ruleScreens_empty⟩
  · obtain ⟨names, hnames, h⟩ := bind_eq_ok.mp h
    obtain ⟨⟨key', mask'⟩, hparse, h⟩ := bind_eq_ok.mp h
    cases h
    exact ⟨parseKeystroke_valid hparse, ruleScreens_of_parseScreens hnames⟩
  · nomatch h

lemma mouseArgs_ok {args : List Name} {button : ButtonID} {mask : KeyModifierMask}
    (h : Config.mouseArgs args = .ok (button, mask)) : ValidButton button mask := by
  unfold Config.mouseArgs at h
  split at h
  · exact parseMouse_valid h
  · nomatch h

lemma broadcastArgs_ok {args : List Name} {mode : LockState} {screens : Name}
    (h : c.broadcastArgs args = .ok (mode, screens)) : c.RuleScreens screens := by
  unfold Config.broadcastArgs at h
  dsimp only at h
  split at h
  · nomatch h
  · split at h
    · obtain ⟨names, hnames, h⟩ := bind_eq_ok.mp h
      cases h
      exact ruleScreens_of_parseScreens hnames
    · cases h
      exact ruleScreens_empty

lemma parseDirection_ne {arg : Name} {dir : Direction} (h : Config.parseDirection arg = some dir) : dir ≠ .noDirection := by
  rw [Config.parseDirection] at h
  split_ifs at h
  all_goals
    cases h
    decide

structure Rule.Extends (c : Config) (r r' : Rule) : Prop where
  condition : r'.condition = r.condition
  actions : ∀ a ∈ r'.actions, a.Stored c ∨ a ∈ r.actions

lemma Rule.Extends.refl (r : Rule) : Rule.Extends c r r := ⟨rfl, fun _ ha => .inr ha⟩

lemma Rule.Extends.trans {r r' r'' : Rule} (h : Rule.Extends c r r') (h' : Rule.Extends c r' r'') : Rule.Extends c r r'' := by
  refine ⟨h'.condition.trans h.condition, fun a ha => ?_⟩
  rcases h'.actions a ha with hstored | ha
  · exact .inl hstored
  · exact h.actions a ha

lemma extends_adoptAction (action : Action) (h : action.Stored c) (r : Rule) (activate : Bool) :
    Rule.Extends c r (r.adoptAction action activate) := by
  refine ⟨r.condition_adoptAction action activate, fun a ha => ?_⟩
  rcases Rule.mem_adoptAction ha with rfl | ha
  · exact .inl h
  · exact .inr ha

lemma ok_of_ite {α : Type} {p : Prop} [Decidable p] {x y : Except String α} {a : α}
    (h : (if p then x else y) = .ok a) : x = .ok a ∨ y = .ok a := by
  split_ifs at h
  · exact .inl h
  · exact .inr h

lemma extends_of_parseAction {r r' : Rule} {activate : Bool} {name : Name} {args : List Name}
    (h : c.parseAction r activate name args = .ok r') (hlast : args.getLast? ≠ some []) : Rule.Extends c r r' := by
  unfold Config.parseAction at h
  rcases ok_of_ite h with h | h
  · obtain ⟨⟨key, mask, screens⟩, hargs, h⟩ := bind_eq_ok.mp h
    cases h
    have hstored := keystrokeArgs_ok hargs
    exact (extends_adoptAction (.keystroke key mask screens true) hstored _ _).trans
      (extends_adoptAction (.keystroke key mask screens false) hstored _ _)
  rcases ok_of_ite h with h | h
  · obtain ⟨⟨key, mask, screens⟩, hargs, h⟩ := bind_eq_ok.mp h
    cases h
    exact extends_adoptAction (.keystroke key mask screens true) (keystrokeArgs_ok hargs) _ _
  rcases ok_of_ite h with h | h
  · obtain ⟨⟨key, mask, screens⟩, hargs, h⟩ := bind_eq_ok.mp h
    cases h
    exact extends_adoptAction (.keystroke key mask screens false) (keystrokeArgs_ok hargs) _ _
  rcases ok_of_ite h with h | h
  · obtain ⟨⟨button, mask⟩, hargs, h⟩ := bind_eq_ok.mp h
    cases h
    have hstored := mouseArgs_ok hargs
    exact (extends_adoptAction (.mouseButton button mask true) hstored _ _).trans
      (extends_adoptAction (.mouseButton button mask false) hstored _ _)
  rcases ok_of_ite h with h | h
  · obtain ⟨⟨button, mask⟩, hargs, h⟩ := bind_eq_ok.mp h
    cases h
    exact extends_adoptAction (.mouseButton button mask true) (mouseArgs_ok hargs) _ _
  rcases ok_of_ite h with h | h
  · obtain ⟨⟨button, mask⟩, hargs, h⟩ := bind_eq_ok.mp h
    cases h
    exact extends_adoptAction (.mouseButton button mask false) (mouseArgs_ok hargs) _ _
  rcases ok_of_ite h with h | h
  · split at h
    · obtain ⟨screen, hscreen, h⟩ := bind_eq_ok.mp h
      cases h
      exact extends_adoptAction (.switchToScreen screen) (screenArg_ok hscreen hlast) _ _
    · nomatch h
  rcases ok_of_ite h with h | h
  · cases h
    exact extends_adoptAction .toggleScreen trivial _ _
  rcases ok_of_ite h with h | h
  · split at h
    · split at h
      · rename_i dir hdir
        cases h
        exact extends_adoptAction (.switchInDirection dir) (parseDirection_ne hdir) _ _
      · nomatch h
    · nomatch h
  rcases ok_of_ite h with h | h
  · obtain ⟨mode, -, h⟩ := bind_eq_ok.mp h
    cases h
    exact extends_adoptAction (.lockCursorToScreen mode) trivial _ _
  rcases ok_of_ite h with h | h
  · obtain ⟨⟨mode, screens⟩, hargs, h⟩ := bind_eq_ok.mp h
    cases h
    exact extends_adoptAction (.keyboardBroadcast mode screens) (broadcastArgs_ok hargs) _ _
  · nomatch h

lemma extends_of_activateActions {fuel : ℕ} {r r' : Rule} {rest rest' : Name}
    (h : c.activateActions fuel r rest = .ok (r', rest')) : Rule.Extends c r r' := by
  induction fuel generalizing r rest with
  | zero =>
    cases h
    exact .refl _
  | succ fuel ih =>
    unfold Config.activateActions at h
    dsimp only at h
    split at h
    · cases h
      exact .refl _
    · split_ifs at h
      · cases h
        exact .refl _
      · obtain ⟨⟨value, args, rest''⟩, hvalue, h⟩ := bind_eq_ok.mp h
        obtain ⟨r'', haction, h⟩ := bind_eq_ok.mp h
        exact (extends_of_parseAction haction (parseNameWithArgs_last hvalue)).trans (ih h)

lemma extends_of_deactivateActions {fuel : ℕ} {r r' : Rule} {rest : Name}
    (h : c.deactivateActions fuel r rest = .ok r') : Rule.Extends c r r' := by
  induction fuel generalizing r rest with
  | zero =>
    cases h
    exact .refl _
  | succ fuel ih =>
    rw [Config.deactivateActions] at h
    obtain ⟨⟨value, args, rest'⟩, hvalue, h⟩ := bind_eq_ok.mp h
    obtain ⟨r'', haction, h⟩ := bind_eq_ok.mp h
    have hextends := extends_of_parseAction haction (parseNameWithArgs_last hvalue)
    split at h
    · cases h
      exact hextends
    · exact hextends.trans (ih h)

lemma parseRule_first {name value rest : Name} {nameArgs valueArgs : List Name} {rule : Rule}
    (h : c.parseRule name nameArgs value valueArgs rest = .ok rule) (hvalue : valueArgs.getLast? ≠ some []) :
    ∃ condition first, c.parseCondition name nameArgs = .ok condition ∧ Rule.Extends c (Rule.new condition) first ∧
      (do
        let (rule, rest) ← c.activateActions rest.length first rest
        match rest.tail.dropWhile isBlank with
        | [] => return rule
        | s => c.deactivateActions (s.length + 1) rule s) = Except.ok rule := by
  rw [Config.parseRule] at h
  obtain ⟨condition, hcondition, h⟩ := bind_eq_ok.mp h
  rcases ok_of_ite h with h | h
  · obtain ⟨first, hfirst, h⟩ := bind_eq_ok.mp h
    exact ⟨condition, first, hcondition, extends_of_parseAction hfirst hvalue, h⟩
  · exact ⟨condition, _, hcondition, .refl _, h⟩

lemma parseRule_stored {name value rest : Name} {nameArgs valueArgs : List Name} {rule : Rule}
    (h : c.parseRule name nameArgs value valueArgs rest = .ok rule) (hname : nameArgs.getLast? ≠ some [])
    (hvalue : valueArgs.getLast? ≠ some []) : rule.Stored c := by
  obtain ⟨condition, first, hcondition, hnew, h⟩ := parseRule_first h hvalue
  obtain ⟨⟨r, rest'⟩, hactivate, h⟩ := bind_eq_ok.mp h
  have hrule : Rule.Extends c (Rule.new condition) rule := by
    dsimp only at h
    split at h
    · cases h
      exact hnew.trans (extends_of_activateActions hactivate)
    · exact (hnew.trans (extends_of_activateActions hactivate)).trans (extends_of_deactivateActions h)
  refine ⟨⟨condition, hrule.condition, parseCondition_stored hcondition hname⟩, fun a ha => ?_⟩
  rcases hrule.actions a ha with hstored | hnone
  · exact hstored
  · cases hnone

section Mono

variable (hmono : ∀ e ∈ c.nameToCanonicalName.entries, e ∈ d.nameToCanonicalName.entries)

include hmono

lemma canonicalNames_mono {name : Name} (h : name ∈ c.canonicalNames) : name ∈ d.canonicalNames := by
  obtain ⟨e, he, rfl⟩ := List.mem_map.mp h
  exact List.mem_map_of_mem (hmono e he)

lemma Config.RuleName.mono {name : Name} (h : c.RuleName name) : d.RuleName name := canonicalNames_mono hmono h

lemma Config.RuleScreens.mono {screens : Name} (h : c.RuleScreens screens) : d.RuleScreens screens := by
  obtain ⟨names, hjoin, hnames⟩ := h
  exact ⟨names, hjoin, fun e he => (hnames e he).imp id (canonicalNames_mono hmono)⟩

lemma Rule.Stored.mono {r : Rule} (h : r.Stored c) : r.Stored d := by
  obtain ⟨⟨condition, hcondition, hstored⟩, hactions⟩ := h
  refine ⟨⟨condition, hcondition, ?_⟩, fun a ha => ?_⟩
  · cases condition with
    | keystroke key mask => exact hstored
    | mouseButton button mask => exact hstored
    | screenConnected screen => exact Config.RuleName.mono hmono hstored
  · have hstored := hactions a ha
    cases a with
    | lockCursorToScreen mode => trivial
    | switchToScreen screen => exact Config.RuleName.mono hmono hstored
    | toggleScreen => trivial
    | switchInDirection dir => exact hstored
    | keyboardBroadcast mode screens => exact Config.RuleScreens.mono hmono hstored
    | keystroke key mask screens press => exact ⟨hstored.1, Config.RuleScreens.mono hmono hstored.2⟩
    | mouseButton button mask press => exact hstored

end Mono

end Parsing

namespace Reading

lemma Step.rules {resolves : Name → Bool} {s t : Reading} (h : Step resolves s t) :
    t.rules = s.rules ∨ ∃ rule, rule.Stored s.config ∧ t.rules = s.rules ++ [rule] := by
  cases h with
  | rule hname hvalue hrule => exact .inr ⟨_, parseRule_stored hrule hname hvalue, rfl⟩
  | _ => exact .inl rfl

lemma Step.storedRules {resolves : Name → Bool} {s t : Reading} (h : Step resolves s t)
    (hinv : ∀ rule ∈ s.rules, rule.Stored s.config) : ∀ rule ∈ t.rules, rule.Stored t.config := by
  intro rule hrule
  rcases h.rules with hsame | ⟨rule', hstored, hadd⟩
  · rw [hsame] at hrule
    exact (hinv rule hrule).mono h.names_mono
  · rw [hadd] at hrule
    rcases List.mem_append.mp hrule with hrule | hrule
    · exact (hinv rule hrule).mono h.names_mono
    · rw [List.mem_singleton.mp hrule]
      exact hstored.mono h.names_mono

end Reading

theorem readConfig_storedRules {resolves : Name → Bool} {text : Name} {file : StoredConfig}
    (h : readConfig resolves text = .ok file) : ∀ rule ∈ file.rules, rule.Stored file.config := by
  obtain ⟨t, hinv, rfl⟩ := readConfig_invariant (I := fun s => ∀ rule ∈ s.rules, rule.Stored s.config)
    (by intro rule hrule; nomatch hrule) (fun _ _ hs hstep => hstep.storedRules hs) h
  exact hinv

end InputLeap
