import InputLeap.Lib.Reachable
import InputLeap.Server.Config

/-! The options of the server and of each screen, as they are set and removed. Setting an option does not replace the
value that it has, so the first value is kept until the option is removed. -/

namespace InputLeap

open InputLeap.Lib

namespace Config

def changeOptions (c : Config) (name : Name) (f : ScreenOptions → ScreenOptions) : Option Config :=
  if name = [] then some { c with globalOptions := f c.globalOptions }
  else if c.map.contains name then
    some { c with map := c.map.modify name fun cell => { cell with options := f cell.options } }
  else none

def removeOption (c : Config) (name : Name) (option : OptionID) : Option Config :=
  c.changeOptions name fun options => options.erase option

def removeOptions (c : Config) (name : Name) : Option Config := c.changeOptions name fun _ => .empty

def getOption (c : Config) (name : Name) (option : OptionID) : Option OptionValue :=
  (c.getOptions name).bind fun options => options.find? option

end Config

inductive OptionCall
  | addOption (name : Name) (option : OptionID) (value : OptionValue)
  | removeOption (name : Name) (option : OptionID)
  | removeOptions (name : Name)
  deriving DecidableEq

namespace OptionCall

/-- A call for a screen that is not there fails and changes nothing. -/
def run (c : Config) : OptionCall → Config
  | addOption name option value => (c.addOption name option value).getD c
  | removeOption name option => (c.removeOption name option).getD c
  | removeOptions name => (c.removeOptions name).getD c

def screen : OptionCall → Name
  | addOption name _ _ => name
  | removeOption name _ => name
  | removeOptions name => name

def change : OptionCall → ScreenOptions → ScreenOptions
  | addOption _ option value, options => options.insert option value
  | removeOption _ option, options => options.erase option
  | removeOptions _, _ => .empty

lemma run_eq (c : Config) (call : OptionCall) : call.run c = (c.changeOptions call.screen call.change).getD c := by
  cases call <;> rfl

variable (name : Name) (option : OptionID)

def write (v : Option OptionValue) : OptionCall → Option OptionValue
  | addOption n o w => if caseless n = caseless name ∧ o = option then some w else v
  | removeOption n o => if caseless n = caseless name ∧ o = option then none else v
  | removeOptions n => if caseless n = caseless name then none else v

end OptionCall

/-- The value of the last call that sets an option, if it has not been removed since. -/
def lastValue (name : Name) (option : OptionID) (v : Option OptionValue) (calls : List OptionCall) : Option OptionValue :=
  calls.foldl (OptionCall.write name option) v

namespace Config

/-- All options, of the server and of every screen, have the value that was set last. -/
def LastWins (c : Config) (calls : List OptionCall) : Prop :=
  ∀ name, (c.getOptions name).isSome = true → ∀ option,
    (calls.foldl OptionCall.run c).getOption name option = lastValue name option (c.getOption name option) calls

def SetsNew (c : Config) : OptionCall → Prop
  | .addOption name option value => ∀ v ∈ c.getOption name option, v = value
  | _ => True

instance (c : Config) (call : OptionCall) : Decidable (c.SetsNew call) :=
  match call with
  | .addOption name option value => inferInstanceAs (Decidable (∀ v ∈ c.getOption name option, v = value))
  | .removeOption _ _ => .isTrue trivial
  | .removeOptions _ => .isTrue trivial

variable {c : Config} {name n : Name} {option : OptionID} {f : ScreenOptions → ScreenOptions}

lemma caseless_eq_caseless_nil : caseless n = caseless [] ↔ n = [] := by
  rw [caseless, caseless, List.map_nil, List.map_eq_nil_iff]

lemma getOptions_change : ((c.changeOptions n f).getD c).getOptions name =
    if caseless n = caseless name then (c.getOptions name).map f else c.getOptions name := by
  rw [changeOptions]
  by_cases hn : n = []
  · subst hn
    rw [if_pos rfl, Option.getD_some]
    by_cases hnil : name = []
    · subst hnil
      rfl
    · have hne : ¬ caseless [] = caseless name := fun h => hnil (caseless_eq_caseless_nil.mp h.symm)
      rw [getOptions, getOptions, if_neg hnil, if_neg hne, if_neg hnil]
  · rw [if_neg hn]
    by_cases hnil : name = []
    · subst hnil
      rw [if_neg (caseless_eq_caseless_nil.not.mpr hn)]
      split_ifs <;> rfl
    · rw [getOptions, getOptions, if_neg hnil, if_neg hnil]
      split_ifs with hthere hsame hsame
      · change ((c.map.modify n _).find? name).map Cell.options = _
        rw [OrdMap.find?_modify_eq, if_pos hsame.symm, Option.map_map, Option.map_map]
        rfl
      · change ((c.map.modify n _).find? name).map Cell.options = _
        rw [OrdMap.find?_modify_eq, if_neg fun h => hsame h.symm]
      · rw [Bool.not_eq_true, OrdMap.contains, OrdMap.find?_congr hsame, Option.isSome_eq_false_iff,
          Option.isNone_iff_eq_none] at hthere
        change (c.map.find? name).map Cell.options = _
        rw [hthere]
        rfl
      · rfl

lemma getOption_congr (h : caseless n = caseless name) (option : OptionID) : c.getOption n option = c.getOption name option := by
  rw [getOption, getOption, getOptions, getOptions, OrdMap.find?_congr h]
  by_cases hn : n = []
  · subst hn
    rw [if_pos rfl, if_pos (caseless_eq_caseless_nil.mp h.symm)]
  · rw [if_neg hn, if_neg]
    rintro rfl
    exact hn (caseless_eq_caseless_nil.mp h)

lemma getOption_change : ((c.changeOptions n f).getD c).getOption name option =
    if caseless n = caseless name then ((c.getOptions name).map f).bind fun options => options.find? option
    else c.getOption name option := by
  rw [getOption, getOptions_change]
  split_ifs <;> rfl

end Config

section Calls

variable {c : Config} {name : Name} {option : OptionID} {call : OptionCall}

lemma isSome_getOptions_run : ((call.run c).getOptions name).isSome = (c.getOptions name).isSome := by
  rw [call.run_eq, Config.getOptions_change]
  split_ifs
  · exact Option.isSome_map
  · rfl

lemma getOption_run (hname : (c.getOptions name).isSome = true) : (call.run c).getOption name option =
    match call with
    | .addOption n o w =>
      if caseless n = caseless name ∧ o = option then some ((c.getOption name option).getD w) else c.getOption name option
    | call => call.write name option (c.getOption name option) := by
  obtain ⟨options, hoptions⟩ := Option.isSome_iff_exists.mp hname
  have hget : c.getOption name option = options.find? option := by rw [Config.getOption, hoptions, Option.bind_some]
  rw [call.run_eq, Config.getOption_change, hget, hoptions, Option.map_some, Option.bind_some]
  cases call with
  | addOption n o w =>
    dsimp only [OptionCall.screen, OptionCall.change]
    rw [OrdMap.find?_insert]
    by_cases hn : caseless n = caseless name
    · by_cases ho : option = o
      · simp [hn, ho]
      · simp [hn, ho, Ne.symm ho]
    · simp [hn]
  | removeOption n o =>
    dsimp only [OptionCall.screen, OptionCall.change, OptionCall.write]
    rw [OrdMap.find?_erase]
    by_cases hn : caseless n = caseless name
    · by_cases ho : option = o
      · simp [hn, ho]
      · simp [hn, ho, Ne.symm ho]
    · simp [hn]
  | removeOptions n => rfl

lemma getOption_run_eq_write (hname : (c.getOptions name).isSome = true) (hnew : c.SetsNew call) :
    (call.run c).getOption name option = call.write name option (c.getOption name option) := by
  rw [getOption_run hname]
  cases call with
  | addOption n o w =>
    dsimp only [OptionCall.write]
    split_ifs with hsame
    · obtain ⟨hn, rfl⟩ := hsame
      cases hv : c.getOption name o with
      | none => rfl
      | some v => rw [Option.getD_some, hnew v (by rwa [Config.getOption_congr hn])]
    · rfl
  | removeOption n o => rfl
  | removeOptions n => rfl

lemma setsNew_of_lastWins (h : c.LastWins [call]) : c.SetsNew call := by
  cases call with
  | addOption n o w =>
    intro v hv
    have hname : (c.getOptions n).isSome = true := by
      rw [Option.isSome_iff_ne_none]
      intro hnone
      rw [Config.getOption, hnone] at hv
      cases hv
    have hlast := h n hname o
    rw [List.foldl_cons, List.foldl_nil, getOption_run hname, Option.mem_def.mp hv] at hlast
    simpa [lastValue, OptionCall.write] using hlast
  | removeOption n o => trivial
  | removeOptions n => trivial

end Calls

/-- In every state that the calls lead to, each option has the value that was set last, if no call sets an option to
another value than the one that it has. -/
theorem lastWins_iff (c : Config) (calls : List OptionCall) :
    (∀ n, c.LastWins (calls.take n)) ↔ Along (fun c call => some (call.run c)) Config.SetsNew calls c := by
  induction calls generalizing c with
  | nil =>
    refine iff_of_true ?_ trivial
    intro n name hname option
    rw [List.take_nil]
    rfl
  | cons call calls ih =>
    have hrest (hnew : c.SetsNew call) (n : ℕ) :
        c.LastWins ((call :: calls).take (n + 1)) ↔ (call.run c).LastWins (calls.take n) := by
      apply forall_congr'
      intro name
      rw [isSome_getOptions_run]
      apply forall_congr'
      intro hname
      apply forall_congr'
      intro option
      rw [List.take_succ_cons, List.foldl_cons, lastValue, List.foldl_cons, getOption_run_eq_write hname hnew]
      rfl
    have hfirst (h : ∀ n, c.LastWins ((call :: calls).take n)) : c.SetsNew call := by
      apply setsNew_of_lastWins
      have hone := h 1
      rwa [List.take_succ_cons, List.take_zero] at hone
    constructor
    · intro h
      refine ⟨hfirst h, ?_⟩
      rintro _ ⟨⟩
      exact (ih _).mp fun n => (hrest (hfirst h) n).mp (h (n + 1))
    · rintro ⟨hnew, halong⟩ n
      cases n with
      | zero =>
        intro name hname option
        rfl
      | succ n => exact (hrest hnew n).mpr ((ih _).mpr (halong _ rfl) n)

def delayCalls : List OptionCall :=
  [.addOption [] kOptionScreenSwitchDelay 250, .addOption [] kOptionScreenSwitchDelay 500]

/-- The second value is not taken. -/
theorem addOption_keeps_first : ¬ ∀ (c : Config) (calls : List OptionCall), c.LastWins calls := by
  intro hall
  have hlast := hall .empty delayCalls [] rfl kOptionScreenSwitchDelay
  exact absurd hlast (by decide)

end InputLeap
