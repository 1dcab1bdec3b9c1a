import InputLeap.Server.Reload

/-! The rules by which a server filters its input, and what becomes of them when it loads another
configuration. The configuration holds rules of its own, which are copied when the server starts. -/

namespace InputLeap

open InputLeap.Lib

abbrev KeyID := BitVec 32

abbrev KeyModifierMask := BitVec 32

abbrev ButtonID := BitVec 8

def kKeyScrollLock : KeyID := 0xEF14

deriving instance DecidableEq for LockState

inductive Condition
  | keystroke (key : KeyID) (mask : KeyModifierMask)
  | mouseButton (button : ButtonID) (mask : KeyModifierMask)
  | screenConnected (screen : Name)
  deriving DecidableEq

inductive Action
  | lockCursorToScreen (mode : LockState)
  | switchToScreen (screen : Name)
  | toggleScreen
  | switchInDirection (dir : Direction)
  | keyboardBroadcast (mode : LockState) (screens : Name)
  | keystroke (key : KeyID) (mask : KeyModifierMask) (screens : Name) (press : Bool)
  | mouseButton (button : ButtonID) (mask : KeyModifierMask) (press : Bool)
  deriving DecidableEq

def Action.locksToScreen : Action → Bool
  | lockCursorToScreen mode => decide (mode ≠ .off)
  | _ => false

/-- The number under which the screen knows a hotkey is left out: two rules are equal if they match
the same input and do the same. -/
structure Rule where
  condition : Option Condition
  activateActions : List Action
  deactivateActions : List Action
  deriving DecidableEq

namespace Rule

def new (condition : Condition) : Rule := ⟨some condition, [], []⟩

def adoptAction (r : Rule) (action : Action) (onActivation : Bool) : Rule :=
  if onActivation then { r with activateActions := r.activateActions ++ [action] }
  else { r with deactivateActions := r.deactivateActions ++ [action] }

def locksToScreen (r : Rule) : Bool :=
  r.activateActions.any Action.locksToScreen || r.deactivateActions.any Action.locksToScreen

def scrollLock : Rule := (new (.keystroke kKeyScrollLock 0)).adoptAction (.lockCursorToScreen .toggle) true

end Rule

structure InputFilter where
  ruleList : List Rule

namespace InputFilter

def addFilterRule (f : InputFilter) (rule : Rule) : InputFilter := ⟨f.ruleList ++ [rule]⟩

def addRules (f : InputFilter) (rules : List Rule) : InputFilter := rules.foldl addFilterRule f

lemma addRules_ruleList (f : InputFilter) (rules : List Rule) : (f.addRules rules).ruleList = f.ruleList ++ rules := by
  induction rules generalizing f with
  | nil => exact (List.append_nil _).symm
  | cons rule rules ih =>
    have h : (f.addRules (rule :: rules)).ruleList = (f.addFilterRule rule).ruleList ++ rules := ih _
    rw [h, addFilterRule, List.append_assoc, List.singleton_append]

end InputFilter

/-- A configuration as it is read from a file. An action that locks the cursor to the screen leaves a
mark when it is read. -/
structure ConfigFile where
  config : Config
  rules : List Rule

def ConfigFile.hasLockToScreenAction (file : ConfigFile) : Bool := file.rules.any Rule.locksToScreen

/-- A server with its filter. The rules and the mark belong to the configuration. -/
structure FilteredServer where
  server : Server
  inputFilterRules : List Rule
  hasLockToScreenAction : Bool
  inputFilter : InputFilter

namespace FilteredServer

def addScrollLock (s : FilteredServer) : FilteredServer :=
  if s.hasLockToScreenAction then s
  else { s with
    inputFilterRules := s.inputFilterRules ++ [.scrollLock]
    inputFilter := s.inputFilter.addFilterRule .scrollLock }

def setConfig (env : Env) (s : FilteredServer) (config : Config) : FilteredServer :=
  let t := { s with server := s.server.setConfig env config }
  if config.isScreen (s.server.registry.names primaryClient) then t.addScrollLock else t

def reloadConfig (env : Env) (s : FilteredServer) (file : ConfigFile) : FilteredServer :=
  let server := { s.server with registry := { s.server.registry with config := file.config } }
  setConfig env { s with
    server := server
    inputFilterRules := file.rules
    hasLockToScreenAction := file.hasLockToScreenAction } file.config

def new (env : Env) (file : ConfigFile) (name : Name) (shape : DisplayRect) (cursor pos : Position)
    (enableDragDrop : Bool) : FilteredServer :=
  let s := Server.start file.config name shape cursor pos enableDragDrop
  let t := setConfig env
    { server := (s.addClient primaryClient).getD s
      inputFilterRules := file.rules
      hasLockToScreenAction := file.hasLockToScreenAction
      inputFilter := (InputFilter.mk []).addRules file.rules } file.config
  if env.toggleMask &&& keyModifierScrollLock ≠ 0 then
    { t with server := { t.server with lockedToScreen := true } }
  else t

end FilteredServer

inductive FilterEvent
  | handle (e : Event)
  | reload (file : ConfigFile)

namespace FilteredServer

def next (s : FilteredServer) (e : Env × FilterEvent) : Option FilteredServer :=
  match e.2 with
  | .handle event =>
    if event.isReload then none else (s.server.next (e.1, event)).map fun server => { s with server := server }
  | .reload file => some (s.reloadConfig e.1 file)

lemma addScrollLock_server (s : FilteredServer) : s.addScrollLock.server = s.server := by
  rw [addScrollLock]
  split_ifs <;> rfl

lemma setConfig_server (env : Env) (s : FilteredServer) (config : Config) :
    (s.setConfig env config).server = s.server.setConfig env config := by
  simp only [setConfig]
  split_ifs
  · exact addScrollLock_server _
  · rfl

theorem reloadConfig_server (env : Env) (s : FilteredServer) (file : ConfigFile) :
    (s.reloadConfig env file).server = s.server.reloadConfig env file.config :=
  setConfig_server _ _ _

theorem new_server (env : Env) (file : ConfigFile) (name : Name) (shape : DisplayRect) (cursor pos : Position)
    (enableDragDrop : Bool) : (new env file name shape cursor pos enableDragDrop).server =
      Server.new env file.config name shape cursor pos enableDragDrop := by
  simp only [new, Server.new]
  split_ifs
  · rw [setConfig_server]
  · rw [setConfig_server]

end FilteredServer

/-- What a configuration adds to the filter each time it is accepted. -/
def ConfigFile.lockRules (file : ConfigFile) : List Rule := if file.hasLockToScreenAction then [] else [.scrollLock]

/-- The files that are accepted by a server on the screen `name`. -/
def accepted (name : Name) : List (Env × FilterEvent) → List ConfigFile
  | [] => []
  | (_, .handle _) :: es => accepted name es
  | (_, .reload file) :: es => if file.config.isScreen name then file :: accepted name es else accepted name es

namespace FilteredServer

variable {env : Env} {s t : FilteredServer} {file : ConfigFile} {name : Name}

def primaryName (s : FilteredServer) : Name := s.server.registry.names primaryClient

def ruleList (s : FilteredServer) : List Rule := s.inputFilter.ruleList

lemma setConfig_ruleList {config : Config} (h : config.isScreen s.primaryName = true) :
    (s.setConfig env config).ruleList =
      s.ruleList ++ if s.hasLockToScreenAction then [] else [.scrollLock] := by
  rw [primaryName] at h
  rw [setConfig, if_pos h, addScrollLock]
  dsimp only
  split_ifs
  · exact (List.append_nil _).symm
  · rfl

lemma reloadConfig_ruleList (h : file.config.isScreen s.primaryName = true) :
    (s.reloadConfig env file).ruleList = s.ruleList ++ file.lockRules := setConfig_ruleList h

lemma reloadConfig_refused (h : ¬ file.config.isScreen s.primaryName = true) :
    (s.reloadConfig env file).ruleList = s.ruleList := by
  rw [primaryName] at h
  simp only [reloadConfig, setConfig]
  rw [if_neg h]
  rfl

lemma new_ruleList (h : file.config.isScreen name = true) (env : Env) (shape : DisplayRect) (cursor pos : Position)
    (enableDragDrop : Bool) :
    (new env file name shape cursor pos enableDragDrop).ruleList = file.rules ++ file.lockRules := by
  have hset (s : FilteredServer) (hname : s.primaryName = name)
      (hlock : s.hasLockToScreenAction = file.hasLockToScreenAction)
      (hrules : s.inputFilter = (InputFilter.mk []).addRules file.rules) :
      (s.setConfig env file.config).ruleList = file.rules ++ file.lockRules := by
    rw [setConfig_ruleList (by rwa [hname]), hlock, ruleList, hrules, InputFilter.addRules_ruleList, List.nil_append,
      ConfigFile.lockRules]
  rw [new]
  split_ifs
  · exact hset _ rfl rfl rfl
  · exact hset _ rfl rfl rfl

lemma next_primaryName {e : Env × FilterEvent} (h : s.next e = some t) : t.primaryName = s.primaryName := by
  obtain ⟨env, e⟩ := e
  cases e with
  | handle event =>
    simp only [next] at h
    split_ifs at h
    obtain ⟨server, hserver, rfl⟩ := Option.map_eq_some_iff.mp h
    exact Server.next_primaryName hserver
  | reload file =>
    rw [← Option.some.inj h, primaryName, reloadConfig_server]
    exact Server.reloadConfig_primaryName env s.server file.config

lemma next_ruleList {e : Env × FilterEvent} (h : s.next e = some t) :
    t.ruleList = s.ruleList ++ (accepted s.primaryName [e]).flatMap ConfigFile.lockRules := by
  obtain ⟨env, e⟩ := e
  cases e with
  | handle event =>
    simp only [next] at h
    split_ifs at h
    obtain ⟨server, -, rfl⟩ := Option.map_eq_some_iff.mp h
    exact (List.append_nil _).symm
  | reload file =>
    rw [← Option.some.inj h, accepted, accepted]
    split_ifs with hscreen
    · rw [reloadConfig_ruleList hscreen, List.flatMap_singleton]
    · rw [reloadConfig_refused hscreen, List.flatMap_nil, List.append_nil]

lemma accepted_cons (name : Name) (e : Env × FilterEvent) (es : List (Env × FilterEvent)) :
    accepted name (e :: es) = accepted name [e] ++ accepted name es := by
  obtain ⟨env, e⟩ := e
  cases e with
  | handle event => rfl
  | reload file =>
    simp only [accepted]
    split_ifs <;> rfl

theorem run_ruleList {es : List (Env × FilterEvent)} (h : runFrom next es s = some t) : t.primaryName = s.primaryName ∧
    t.ruleList = s.ruleList ++ (accepted s.primaryName es).flatMap ConfigFile.lockRules := by
  induction es generalizing s with
  | nil =>
    rw [← Option.some.inj h]
    exact ⟨rfl, (List.append_nil _).symm⟩
  | cons e es ih =>
    obtain ⟨u, hu, hrest⟩ := Option.bind_eq_some_iff.mp h
    obtain ⟨hname, hrules⟩ := ih hrest
    have hu' := next_primaryName hu
    refine ⟨hname.trans hu', ?_⟩
    rw [hrules, next_ruleList hu, hu', accepted_cons _ e es, List.flatMap_append, List.append_assoc]

/-- Loading a file gives the rules that a server started with it would have exactly if the filter holds
the rules of the file already: those it was started with, and a rule for ScrollLock for each accepted
file that has no such action. -/
theorem reload_rules_eq_restart_iff {env₁ env₂ env₃ : Env} {old file : ConfigFile} {name : Name}
    {shape shape' : DisplayRect} {cursor cursor' pos pos' : Position} {enableDragDrop : Bool}
    {es : List (Env × FilterEvent)} {s : FilteredServer}
    (hold : old.config.isScreen name = true) (hfile : file.config.isScreen name = true)
    (hs : runFrom next es (new env₁ old name shape cursor pos enableDragDrop) = some s) :
    (new env₃ file name shape' cursor' pos' enableDragDrop).ruleList = file.rules ++ file.lockRules ∧
    ((s.reloadConfig env₂ file).ruleList = (new env₃ file name shape' cursor' pos' enableDragDrop).ruleList ↔
      old.rules ++ (old :: accepted name es).flatMap ConfigFile.lockRules = file.rules) := by
  obtain ⟨hname, hrules⟩ := run_ruleList hs
  have hstart : (new env₁ old name shape cursor pos enableDragDrop).primaryName = name := by
    rw [primaryName, new_server, (Server.new_reconfigured env₁ hold shape cursor pos enableDragDrop).registry]
    rfl
  have hscreen : file.config.isScreen s.primaryName = true := by rwa [hname, hstart]
  have hrestart := new_ruleList hfile env₃ shape' cursor' pos' enableDragDrop
  refine ⟨hrestart, ?_⟩
  rw [hrestart, reloadConfig_ruleList hscreen, List.append_left_inj, hrules, hstart,
    new_ruleList hold, List.flatMap_cons, List.append_assoc]

def toggleFile (key : KeyID) (rules : List Rule) : ConfigFile :=
  ⟨.ofScreens [['p']], (Rule.new (.keystroke key 0)).adoptAction .toggleScreen true :: rules⟩

def plain (file : ConfigFile) : FilteredServer :=
  new .plain file ['p'] ⟨0, 0, 1920, 1080⟩ (0, 0) (0, 0) false

theorem reload_rules_scrollLock :
    ((plain (toggleFile 0xEFBE [])).reloadConfig .plain (toggleFile 0xEFBE [.scrollLock])).ruleList =
      (plain (toggleFile 0xEFBE [.scrollLock])).ruleList := by
  have hs : runFrom next [] (plain (toggleFile 0xEFBE [])) = some (plain (toggleFile 0xEFBE [])) := rfl
  exact (reload_rules_eq_restart_iff (by decide) (by decide) hs).2.mpr (by decide)

theorem reload_rules_ne_restart : ∃ old file : ConfigFile, old.config.isScreen ['p'] = true ∧
    file.config.isScreen ['p'] = true ∧ ((plain old).reloadConfig .plain file).ruleList ≠ (plain file).ruleList :=
  ⟨toggleFile 0xEFBE [], toggleFile 0xEFBF [], by decide, by decide, by decide⟩

end FilteredServer

end InputLeap
