import InputLeap.Server.RuleLines
import InputLeap.Server.ScreenNames
import InputLeap.Server.State

/-! The screens that a key is for, as a text of names between colons. -/

namespace InputLeap

open InputLeap.Lib

def cString (s : Name) : Name := s.takeWhile fun ch => decide (ch ≠ '\x00')

structure KeyInfo where
  key : KeyID
  mask : KeyModifierMask
  button : BitVec 16
  count : BitVec 32
  screens : Name

namespace KeyInfo

def create (id : KeyID) (mask : KeyModifierMask) (button : BitVec 16) (count : BitVec 32) (destinations : ScreenSet) :
    KeyInfo :=
  ⟨id, mask, button, count, destinations.join⟩

def screensOrNullptr (info : KeyInfo) : Option Name :=
  if info.screens = [] then none else some (cString info.screens)

def isDefault : Option Name → Bool
  | none => true
  | some screens => decide (screens = [])

def contains (screens : Option Name) (name : Name) : Bool :=
  if isDefault screens then false
  else if (screens.getD []).head? = some '*' then true
  else decide (cString (':' :: (name ++ [':'])) <:+: screens.getD [])

/-- `none` where `strchr` finds no colon. -/
def splitFrom (dst : ScreenSet) : Name → Name → Option ScreenSet
  | part, [] => if part = [] then some dst else none
  | part, ch :: s => if ch = ':' then splitFrom (dst.insert part ()) [] s else splitFrom dst (part ++ [ch]) s

def split (screens : Option Name) : Option ScreenSet :=
  if isDefault screens then some .empty
  else if (screens.getD []).head? = some '*' then some ((OrdMap.empty : ScreenSet).insert ['*'] ())
  else splitFrom .empty [] (screens.getD []).tail

end KeyInfo

inductive KeyMessage
  | keyDown (id : KeyID) (mask : KeyModifierMask) (button : BitVec 16)
  | keyUp (id : KeyID) (mask : KeyModifierMask) (button : BitVec 16)
  deriving DecidableEq

structure KeyboardBroadcasting where
  on : Bool
  screens : Name
  deriving DecidableEq

def KeyboardBroadcasting.handleKeyboardBroadcast (b : KeyboardBroadcasting) (state : LockState) (screens : Name) :
    KeyboardBroadcasting :=
  let newState := match state with
    | .off => false
    | .on => true
    | .toggle => !b.on
  if newState ≠ b.on ∨ screens ≠ b.screens then ⟨newState, screens⟩ else b

namespace Server

def relayKey (s : Server) (b : KeyboardBroadcasting) (screens : Option Name) (message : KeyMessage) :
    List (ClientId × KeyMessage) :=
  if !b.on && KeyInfo.isDefault screens then [(s.active, message)]
  else
    let screens :=
      if screens.isNone && b.on then
        if KeyInfo.isDefault (some (cString b.screens)) then some ['*'] else some (cString b.screens)
      else screens
    (s.registry.clients.entries.filter fun e => KeyInfo.contains screens e.1).map fun e => (e.2, message)

def onKeyDown (s : Server) (b : KeyboardBroadcasting) (id : KeyID) (mask : KeyModifierMask) (button : BitVec 16)
    (screens : Option Name) : List (ClientId × KeyMessage) :=
  s.relayKey b screens (.keyDown id mask button)

def onKeyUp (s : Server) (b : KeyboardBroadcasting) (id : KeyID) (mask : KeyModifierMask) (button : BitVec 16)
    (screens : Option Name) : List (ClientId × KeyMessage) :=
  s.relayKey b screens (.keyUp id mask button)

def handleKeyDownEvent (s : Server) (b : KeyboardBroadcasting) (info : KeyInfo) : List (ClientId × KeyMessage) :=
  s.onKeyDown b info.key info.mask info.button info.screensOrNullptr

def handleKeyUpEvent (s : Server) (b : KeyboardBroadcasting) (info : KeyInfo) : List (ClientId × KeyMessage) :=
  s.onKeyUp b info.key info.mask info.button info.screensOrNullptr

end Server

/-- A name that can stand in a list; every valid name of a screen is one. -/
structure ListedName (name : Name) : Prop where
  colon : ':' ∉ name
  star : name.head? ≠ some '*'
  nul : '\x00' ∉ name

namespace ListedName

variable {name : Name}

lemma of_valid (h : Config.isValidScreenName name = true) : ListedName name := by
  rw [Config.isValidScreenName_eq] at h
  have hchars := (isNameChar_of_valid h).2
  refine ⟨?_, ?_, ?_⟩
  · exact fun hmem => absurd (hchars _ hmem) (by decide)
  · exact fun hhead => absurd (hchars _ (List.mem_of_mem_head? hhead)) (by decide)
  · exact fun hmem => absurd (hchars _ hmem) (by decide)

end ListedName

namespace ScreenSet

def names (screens : ScreenSet) : List Name := screens.entries.map Prod.fst

def all : ScreenSet := (OrdMap.empty : ScreenSet).insert ['*'] ()

/-- What a set stands for: `*` is every screen. -/
def Covers (screens : ScreenSet) (name : Name) : Prop := screens.contains name = true ∨ screens.contains ['*'] = true

instance (screens : ScreenSet) (name : Name) : Decidable (screens.Covers name) := inferInstanceAs (Decidable (_ ∨ _))

/-- Names of screens, and perhaps `*`. -/
def Listed (screens : ScreenSet) : Prop := ∀ name ∈ screens.names, name = ['*'] ∨ ListedName name

variable {screens : ScreenSet} {name : Name}

lemma contains_iff_mem : screens.contains name = true ↔ name ∈ screens.names := by
  rw [OrdMap.contains_iff, names, List.mem_map]
  rfl

lemma names_eq_nil : screens.names = [] ↔ screens = .empty := by
  rw [names, List.map_eq_nil_iff]
  constructor
  · exact fun h => OrdMap.ext h
  · rintro rfl
    rfl

lemma Listed.listedName (h : screens.Listed) (hall : ['*'] ∉ screens.names) (hname : name ∈ screens.names) :
    ListedName name := by
  apply (h name hname).resolve_left
  rintro rfl
  exact hall hname

lemma join_star (hall : ['*'] ∈ screens.names) : screens.join = ['*'] := joinNames_all hall []

lemma join_eq (hall : ['*'] ∉ screens.names) (hne : screens ≠ .empty) : screens.join = colonText screens.names :=
  joinNames_colonText hall (fun h => hne (names_eq_nil.mp h))

lemma join_eq_nil : screens.join = [] ↔ screens = .empty := by
  constructor
  · intro h
    by_contra hne
    by_cases hall : ['*'] ∈ screens.names
    · simp [join_star hall] at h
    · simp [join_eq hall hne, colonText] at h
  · rintro rfl
    rfl

lemma Listed.join_nul (h : screens.Listed) : '\x00' ∉ screens.join := by
  by_cases hall : ['*'] ∈ screens.names
  · rw [join_star hall]
    decide
  by_cases hne : screens = .empty
  · simp [join_eq_nil.mpr hne]
  rw [join_eq hall hne, colonText, List.mem_cons, List.mem_flatMap]
  rintro (h' | ⟨name, hname, hnul⟩)
  · exact absurd h' (by decide)
  · rcases List.mem_append.mp hnul with hnul | hnul
    · exact (h.listedName hall hname).nul hnul
    · exact absurd hnul (by decide)

end ScreenSet

lemma cString_eq {s : Name} (h : '\x00' ∉ s) : cString s = s := by
  rw [cString, List.takeWhile_eq_self_iff]
  intro ch hch
  rw [decide_eq_true_eq]
  rintro rfl
  exact h hch

namespace KeyInfo

variable {screens : ScreenSet} {name : Name}

lemma splitFrom_word {word rest part : Name} (hword : ':' ∉ word) (dst : ScreenSet) :
    splitFrom dst part (word ++ ':' :: rest) = splitFrom (dst.insert (part ++ word) ()) [] rest := by
  induction word generalizing part with
  | nil => simp [splitFrom]
  | cons ch word ih =>
    have hne : ch ≠ ':' := fun h => hword (h ▸ List.mem_cons_self)
    rw [List.cons_append, splitFrom, if_neg hne, ih (List.not_mem_of_not_mem_cons hword), List.append_assoc,
      List.singleton_append]

lemma splitFrom_words {words : List Name} (hwords : ∀ w ∈ words, ':' ∉ w) (dst : ScreenSet) :
    splitFrom dst [] (words.flatMap fun w => w ++ [':']) = some (words.foldl (fun dst w => dst.insert w ()) dst) := by
  induction words generalizing dst with
  | nil => rfl
  | cons w words ih =>
    have htext : (w :: words).flatMap (fun w => w ++ [':']) = w ++ ':' :: words.flatMap (fun w => w ++ [':']) := by simp
    rw [htext, splitFrom_word (hwords w List.mem_cons_self), ih fun v hv => hwords v (List.mem_cons_of_mem w hv)]
    rfl

lemma foldl_names (screens : ScreenSet) :
    screens.names.foldl (fun (dst : ScreenSet) w => dst.insert w ()) .empty = screens := by
  rw [ScreenSet.names, List.foldl_map]
  exact OrdMap.foldl_insert_entries screens

lemma split_join (h : screens.Listed) :
    split (some (cString screens.join)) = some (if screens.contains ['*'] then ScreenSet.all else screens) := by
  rw [cString_eq h.join_nul]
  by_cases hall : ['*'] ∈ screens.names
  · rw [ScreenSet.join_star hall, if_pos (ScreenSet.contains_iff_mem.mpr hall)]
    rfl
  rw [if_neg (fun hc => hall (ScreenSet.contains_iff_mem.mp hc))]
  by_cases hne : screens = .empty
  · rw [hne]
    rfl
  have hcolon (w : Name) (hw : w ∈ screens.names) : ':' ∉ w := (h.listedName hall hw).colon
  rw [ScreenSet.join_eq hall hne]
  calc split (some (colonText screens.names))
      = splitFrom .empty [] (screens.names.flatMap fun w => w ++ [':']) := rfl
    _ = some (screens.names.foldl (fun dst w => dst.insert w ()) .empty) := splitFrom_words hcolon .empty
    _ = some screens := congrArg some (foldl_names screens)

lemma contains_join (h : screens.Listed) (hname : ListedName name) :
    contains (some (cString screens.join)) name = true ↔ screens.Covers name := by
  rw [cString_eq h.join_nul, ScreenSet.Covers, ScreenSet.contains_iff_mem, ScreenSet.contains_iff_mem]
  by_cases hall : ['*'] ∈ screens.names
  · rw [ScreenSet.join_star hall]
    exact iff_of_true rfl (.inr hall)
  by_cases hne : screens = .empty
  · rw [hne]
    exact iff_of_false Bool.false_ne_true (by rintro (h | h) <;> exact absurd h List.not_mem_nil)
  have hnul : '\x00' ∉ ':' :: (name ++ [':']) := by simp [hname.nul]
  have hcolon (w : Name) (hw : w ∈ screens.names) : ':' ∉ w := (h.listedName hall hw).colon
  have hcontains : contains (some (colonText screens.names)) name =
      decide (cString (':' :: (name ++ [':'])) <:+: colonText screens.names) := rfl
  rw [ScreenSet.join_eq hall hne, hcontains, decide_eq_true_eq, cString_eq hnul, colonText,
    infix_flatMap_separator hname.colon hcolon, or_iff_left hall]

end KeyInfo

namespace Server

variable {s : Server} {screens : ScreenSet}

def namedClients (s : Server) (screens : ScreenSet) : List ClientId :=
  (s.registry.clients.entries.filter fun e => decide (screens.Covers e.1)).map Prod.snd

def ListedClients (s : Server) : Prop := ∀ e ∈ s.registry.clients.entries, ListedName e.1

lemma filter_contains (hs : s.ListedClients) (h : screens.Listed) :
    (s.registry.clients.entries.filter fun e => KeyInfo.contains (some (cString screens.join)) e.1) =
      s.registry.clients.entries.filter fun e => decide (screens.Covers e.1) := by
  apply List.filter_congr
  intro e he
  rw [Bool.eq_iff_iff, decide_eq_true_eq]
  exact KeyInfo.contains_join h (hs e he)

lemma isDefault_join (h : screens.Listed) (hne : screens ≠ .empty) :
    KeyInfo.isDefault (some (cString screens.join)) = false := by
  rw [cString_eq h.join_nul]
  exact decide_eq_false fun hnil => hne (ScreenSet.join_eq_nil.mp hnil)

lemma relayKey_join (hs : s.ListedClients) (h : screens.Listed) (hne : screens ≠ .empty) (b : KeyboardBroadcasting)
    (message : KeyMessage) :
    s.relayKey b (some (cString screens.join)) message = (s.namedClients screens).map fun c => (c, message) := by
  rw [relayKey, isDefault_join h hne, Bool.and_false, if_neg Bool.false_ne_true, Option.isNone_some, Bool.false_and,
    if_neg Bool.false_ne_true]
  dsimp only
  rw [filter_contains hs h, namedClients, List.map_map]
  rfl

lemma relayKey_broadcast (hs : s.ListedClients) (h : screens.Listed) (message : KeyMessage) :
    s.relayKey ⟨true, screens.join⟩ none message =
      (s.namedClients (if screens = .empty then .all else screens)).map fun c => (c, message) := by
  by_cases hne : screens = .empty
  · have hall : ScreenSet.all.Listed := fun n hn => .inl (List.mem_singleton.mp hn)
    have hjoin : some ['*'] = some (cString ScreenSet.all.join) := by decide
    rw [if_pos hne, namedClients, List.map_map, ← filter_contains hs hall, ← hjoin, hne]
    rfl
  · rw [if_neg hne, relayKey, Bool.not_true, Bool.false_and, if_neg Bool.false_ne_true, Option.isNone_none, Bool.true_and,
      if_pos rfl, isDefault_join h hne, if_neg Bool.false_ne_true]
    dsimp only
    rw [filter_contains hs h, namedClients, List.map_map]
    rfl

lemma screensOrNullptr_create (id : KeyID) (mask : KeyModifierMask) (button : BitVec 16) (count : BitVec 32)
    (hne : screens ≠ .empty) : (KeyInfo.create id mask button count screens).screensOrNullptr = some (cString screens.join) :=
  if_neg fun h => hne (ScreenSet.join_eq_nil.mp h)

theorem keys_reach_named (hs : s.ListedClients) (h : screens.Listed) (hne : screens ≠ .empty) (b : KeyboardBroadcasting)
    (id : KeyID) (mask : KeyModifierMask) (button : BitVec 16) (count : BitVec 32) :
    s.handleKeyDownEvent b (.create id mask button count screens) =
        (s.namedClients screens).map (fun c => (c, .keyDown id mask button)) ∧
      s.handleKeyUpEvent b (.create id mask button count screens) =
        (s.namedClients screens).map (fun c => (c, .keyUp id mask button)) := by
  rw [handleKeyDownEvent, handleKeyUpEvent, screensOrNullptr_create id mask button count hne]
  exact ⟨relayKey_join hs h hne b _, relayKey_join hs h hne b _⟩

lemma handleKeyboardBroadcast_on (b : KeyboardBroadcasting) (screens : Name) :
    b.handleKeyboardBroadcast .on screens = ⟨true, screens⟩ := by
  rw [KeyboardBroadcasting.handleKeyboardBroadcast]
  split_ifs with h
  · rfl
  · obtain ⟨hon, hscreens⟩ := not_or.mp h
    rw [not_not] at hon hscreens
    exact (congrArg₂ KeyboardBroadcasting.mk hon hscreens).symm

/-- The keys of the primary screen carry no list. -/
theorem broadcast_keys_reach_named (hs : s.ListedClients) (h : screens.Listed) (b : KeyboardBroadcasting) {info : KeyInfo}
    (hinfo : info.screens = []) :
    s.handleKeyDownEvent (b.handleKeyboardBroadcast .on screens.join) info =
        (s.namedClients (if screens = .empty then .all else screens)).map
          (fun c => (c, .keyDown info.key info.mask info.button)) ∧
      s.handleKeyUpEvent (b.handleKeyboardBroadcast .on screens.join) info =
        (s.namedClients (if screens = .empty then .all else screens)).map
          (fun c => (c, .keyUp info.key info.mask info.button)) := by
  have hnull : info.screensOrNullptr = none := if_pos hinfo
  rw [handleKeyDownEvent, handleKeyUpEvent, hnull, handleKeyboardBroadcast_on]
  exact ⟨relayKey_broadcast hs h _, relayKey_broadcast hs h _⟩

end Server

theorem screenLists_faithful (screens : ScreenSet) (h : screens.Listed) :
    KeyInfo.split (some (cString screens.join)) = some (if screens.contains ['*'] then .all else screens) ∧
      (∀ name, ListedName name → (KeyInfo.contains (some (cString screens.join)) name = true ↔
        screens.contains name = true ∨ screens.contains ['*'] = true)) ∧
      ∀ s : Server, s.ListedClients → ∀ (b : KeyboardBroadcasting) (id : KeyID) (mask : KeyModifierMask) (button : BitVec 16)
        (count : BitVec 32),
        (screens ≠ .empty →
          s.handleKeyDownEvent b (.create id mask button count screens) =
              (s.namedClients screens).map (fun c => (c, .keyDown id mask button)) ∧
            s.handleKeyUpEvent b (.create id mask button count screens) =
              (s.namedClients screens).map fun c => (c, .keyUp id mask button)) ∧
        (s.handleKeyDownEvent (b.handleKeyboardBroadcast .on screens.join) ⟨id, mask, button, count, []⟩ =
            (s.namedClients (if screens = .empty then .all else screens)).map (fun c => (c, .keyDown id mask button)) ∧
          s.handleKeyUpEvent (b.handleKeyboardBroadcast .on screens.join) ⟨id, mask, button, count, []⟩ =
            (s.namedClients (if screens = .empty then .all else screens)).map fun c => (c, .keyUp id mask button)) := by
  refine ⟨KeyInfo.split_join h, fun name hname => KeyInfo.contains_join h hname, ?_⟩
  intro s hs b id mask button count
  refine ⟨?_, ?_⟩
  · intro hne
    exact Server.keys_reach_named hs h hne b id mask button count
  · exact Server.broadcast_keys_reach_named hs h b rfl

def homeScreens : ScreenSet := ((OrdMap.empty : ScreenSet).insert "mac".toList ()).insert "mac-mini".toList ()

theorem screenLists_homeScreens :
    KeyInfo.split (some (cString homeScreens.join)) = some homeScreens ∧ ListedName "mini".toList ∧
      ¬ KeyInfo.contains (some (cString homeScreens.join)) "mini".toList = true := by
  have hmini : ListedName "mini".toList := ⟨by decide, by decide, by decide⟩
  have hlisted : homeScreens.Listed := by
    intro name hname
    have hcases : name = "mac".toList ∨ name = "mac-mini".toList := by
      rw [← ScreenSet.contains_iff_mem, homeScreens, OrdMap.contains_insert, OrdMap.contains_insert] at hname
      rcases hname with rfl | rfl | h
      · exact .inr rfl
      · exact .inl rfl
      · exact absurd h Bool.false_ne_true
    right
    rcases hcases with rfl | rfl
    · exact ⟨by decide, by decide, by decide⟩
    · exact ⟨by decide, by decide, by decide⟩
  have hfaithful := screenLists_faithful homeScreens hlisted
  refine ⟨hfaithful.1, hmini, ?_⟩
  rw [hfaithful.2.1 _ hmini]
  decide

end InputLeap
