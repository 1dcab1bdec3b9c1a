import InputLeap.Lib.Binary32
import InputLeap.Lib.Reachable
import InputLeap.Server.ConfigRead

/-! Dimming the displays of a computer through their gamma ramps, which are kept to be given back. -/

namespace InputLeap.Platform

open InputLeap.Lib

structure DimmingOptions where
  enabled : Bool
  percentage : ℤ

namespace DimmingOptions

def initial : DimmingOptions := ⟨true, 70⟩

def setOptions : List ℕ → DimmingOptions → DimmingOptions
  | id :: value :: options, o =>
    setOptions options <|
      if id = kOptionScreenDimmingEnabled then { o with enabled := value ≠ 0 }
      else if id = kOptionScreenDimmingPercentage then { o with percentage := max 10 (min 100 (BitVec.ofNat 32 value).toInt) }
      else o
  | _, o => o

def dimFactor (o : DimmingOptions) : ℚ := Binary32.round (o.percentage / 100)

end DimmingOptions

/-- What is called on a screen, with the results of the system calls that this makes. -/
inductive ScreenCall (κ : Type)
  | setOptions (options : List ℕ)
  | dimScreen (dim : Bool) (calls : κ)
  | destroy (calls : κ)

section MSWindows

abbrev GammaRamp := Fin (256 * 3) → UInt16

def GammaRamp.dimmed (ramp : GammaRamp) (o : DimmingOptions) : GammaRamp :=
  fun i => .ofNat ⌊Binary32.round ((ramp i).toNat * o.dimFactor)⌋.toNat

structure GammaCalls where
  getDC : Bool
  getDeviceGammaRamp : Bool
  setDeviceGammaRamp : Bool

/-- `display` is the ramp that the display has. -/
structure MSWindowsScreenExtension where
  options : DimmingOptions
  isDimmed : Bool
  originalGamma : GammaRamp
  display : GammaRamp

namespace MSWindowsScreenExtension

variable (s : MSWindowsScreenExtension)

def new (originalGamma display : GammaRamp) : MSWindowsScreenExtension := ⟨.initial, false, originalGamma, display⟩

def dimScreen (dim : Bool) (calls : GammaCalls) : MSWindowsScreenExtension :=
  if !s.options.enabled then s
  else if !calls.getDC then s
  else if dim && !s.isDimmed then
    if calls.getDeviceGammaRamp then
      if calls.setDeviceGammaRamp then
        { s with originalGamma := s.display, display := s.display.dimmed s.options, isDimmed := true }
      else { s with originalGamma := s.display }
    else s
  else if !dim && s.isDimmed then
    if calls.setDeviceGammaRamp then { s with display := s.originalGamma, isDimmed := false } else s
  else s

def next (s : MSWindowsScreenExtension) : ScreenCall GammaCalls → Option MSWindowsScreenExtension
  | .setOptions options => some { s with options := s.options.setOptions options }
  | .dimScreen dim calls => some (s.dimScreen dim calls)
  | .destroy calls => some (s.dimScreen false calls)

end MSWindowsScreenExtension

end MSWindows

section OSX

abbrev DisplayID := ℕ

abbrev GammaTable := Fin 3 → Fin 256 → ℚ

def GammaTable.dimmed (table : GammaTable) (o : DimmingOptions) : GammaTable :=
  fun colour j => Binary32.round (table colour j * o.dimFactor)

structure DisplayGammaInfo where
  displayID : DisplayID
  original : GammaTable
  gammaStored : Bool

/-- `CGGetDisplayTransferByTable` gives a number of samples. -/
structure DisplayCalls where
  displayCount : Option ℕ
  displayList : Option (List DisplayID)
  distinct : ∀ displays ∈ displayList, displays.Nodup
  getTransfer : DisplayID → Option ℕ
  setTransfer : DisplayID → Bool

/-- `displays` are the tables that the displays have. -/
structure OSXScreenExtension where
  options : DimmingOptions
  isDimmed : Bool
  displayGammaInfo : List DisplayGammaInfo
  displays : DisplayID → GammaTable

namespace OSXScreenExtension

variable (s : OSXScreenExtension)

def new (displays : DisplayID → GammaTable) : OSXScreenExtension := ⟨.initial, false, [], displays⟩

structure Pass where
  displays : DisplayID → GammaTable
  displayGammaInfo : List DisplayGammaInfo
  anySuccess : Bool

/-- A table that is not stored is not read either. -/
def dimDisplay (o : DimmingOptions) (calls : DisplayCalls) (pass : Pass) (display : DisplayID) : Pass :=
  let table := pass.displays display
  if calls.getTransfer display = some 256 then
    if calls.setTransfer display then
      ⟨Function.update pass.displays display (table.dimmed o), pass.displayGammaInfo ++ [⟨display, table, true⟩], true⟩
    else { pass with displayGammaInfo := pass.displayGammaInfo ++ [⟨display, table, false⟩] }
  else { pass with displayGammaInfo := pass.displayGammaInfo ++ [⟨display, table, false⟩] }

def restoreDisplay (calls : DisplayCalls) (pass : Pass) (info : DisplayGammaInfo) : Pass :=
  if info.gammaStored && calls.setTransfer info.displayID then
    { pass with displays := Function.update pass.displays info.displayID info.original, anySuccess := true }
  else pass

/-- The displays, if the system calls find some. -/
def DisplayCalls.active (calls : DisplayCalls) : Option (List DisplayID) :=
  match calls.displayCount with
  | none | some 0 => none
  | some (_ + 1) => calls.displayList

def dimScreen (dim : Bool) (calls : DisplayCalls) : OSXScreenExtension :=
  if !s.options.enabled then s
  else if dim = s.isDimmed then s
  else
    match DisplayCalls.active calls with
    | none => s
    | some displays =>
      if dim then
        let pass := displays.foldl (dimDisplay s.options calls) ⟨s.displays, [], false⟩
        if pass.anySuccess then
          { s with isDimmed := true, displayGammaInfo := pass.displayGammaInfo, displays := pass.displays }
        else { s with displayGammaInfo := [], displays := pass.displays }
      else
        let pass := s.displayGammaInfo.foldl (restoreDisplay calls) ⟨s.displays, [], false⟩
        { s with isDimmed := !pass.anySuccess, displayGammaInfo := [], displays := pass.displays }

def next (s : OSXScreenExtension) : ScreenCall DisplayCalls → Option OSXScreenExtension
  | .setOptions options => some { s with options := s.options.setOptions options }
  | .dimScreen dim calls => some (s.dimScreen dim calls)
  | .destroy calls => some (s.dimScreen false calls)

end OSXScreenExtension

end OSX

def ScreenCall.givesBack {κ : Type} : ScreenCall κ → Option κ
  | .setOptions _ | .dimScreen true _ => none
  | .dimScreen false calls | .destroy calls => some calls

namespace MSWindowsScreenExtension

def Succeed (calls : GammaCalls) : Prop := calls.getDC = true ∧ calls.setDeviceGammaRamp = true

/-- If its system calls succeed, the call gives back the ramp `ramp`. -/
def GivesBack (ramp : GammaRamp) (s : MSWindowsScreenExtension) (e : ScreenCall GammaCalls) : Prop :=
  ∀ calls ∈ e.givesBack, Succeed calls → ∀ t, s.next e = some t → t.display = ramp

def EnabledWhenDimmed (s : MSWindowsScreenExtension) (e : ScreenCall GammaCalls) : Prop :=
  ∀ calls ∈ e.givesBack, Succeed calls → s.options.enabled = true ∨ s.isDimmed = false ∨ s.display = s.originalGamma

structure Saved (ramp : GammaRamp) (s : MSWindowsScreenExtension) : Prop where
  light : s.isDimmed = false → s.display = ramp
  dimmed : s.isDimmed = true → s.originalGamma = ramp

variable {s t : MSWindowsScreenExtension} {ramp : GammaRamp} {e : ScreenCall GammaCalls} {calls : GammaCalls}

lemma dimScreen_saved (h : s.Saved ramp) (dim : Bool) (calls : GammaCalls) : (s.dimScreen dim calls).Saved ramp := by
  rw [dimScreen]
  split_ifs with henabled hdc hdim hget hset hundim hset
  · exact h
  · exact h
  · have hlight : s.isDimmed = false := by simpa using (Bool.and_eq_true_iff.mp hdim).2
    exact ⟨fun hdimmed => absurd hdimmed Bool.noConfusion, fun _ => h.light hlight⟩
  · have hlight : s.isDimmed = false := by simpa using (Bool.and_eq_true_iff.mp hdim).2
    exact ⟨h.light, fun hdimmed => absurd (hlight.symm.trans hdimmed) Bool.noConfusion⟩
  · exact h
  · exact ⟨fun _ => h.dimmed (Bool.and_eq_true_iff.mp hundim).2, fun hdimmed => absurd hdimmed Bool.noConfusion⟩
  · exact h
  · exact h

lemma next_saved (h : s.Saved ramp) (ht : s.next e = some t) : t.Saved ramp := by
  cases e with
  | setOptions options =>
    obtain rfl := Option.some.inj ht
    exact ⟨h.light, h.dimmed⟩
  | dimScreen dim calls =>
    obtain rfl := Option.some.inj ht
    exact dimScreen_saved h dim calls
  | destroy calls =>
    obtain rfl := Option.some.inj ht
    exact dimScreen_saved h false calls

lemma display_dimScreen (h : s.Saved ramp) (hcalls : Succeed calls) :
    (s.dimScreen false calls).display = ramp ↔
      s.options.enabled = true ∨ s.isDimmed = false ∨ s.display = s.originalGamma := by
  rw [dimScreen, hcalls.1, hcalls.2]
  cases hdimmed : s.isDimmed with
  | false =>
    have hramp := h.light hdimmed
    cases s.options.enabled with
    | false => simpa using hramp
    | true => simpa using hramp
  | true =>
    have hramp := h.dimmed hdimmed
    cases s.options.enabled with
    | false => simp [hramp]
    | true => simpa using hramp

lemma givesBack_iff (h : s.Saved ramp) (e : ScreenCall GammaCalls) : GivesBack ramp s e ↔ EnabledWhenDimmed s e := by
  apply forall_congr'
  intro calls
  apply forall_congr'
  intro hgives
  apply forall_congr'
  intro hcalls
  rw [← display_dimScreen h hcalls]
  have hnext : s.next e = some (s.dimScreen false calls) := by
    cases e with
    | setOptions options => cases hgives
    | dimScreen dim calls' =>
      cases dim with
      | false =>
        obtain rfl := Option.some.inj hgives
        rfl
      | true => cases hgives
    | destroy calls' =>
      obtain rfl := Option.some.inj hgives
      rfl
  rw [hnext]
  exact ⟨fun hall => hall _ rfl, fun hdisplay t ht => Option.some.inj ht ▸ hdisplay⟩

lemma new_saved (originalGamma ramp : GammaRamp) : (new originalGamma ramp).Saved ramp :=
  ⟨fun _ => rfl, fun hdimmed => absurd hdimmed Bool.noConfusion⟩

lemma givesBack_along (originalGamma ramp : GammaRamp) (es : List (ScreenCall GammaCalls)) :
    Along next (GivesBack ramp) es (new originalGamma ramp) ↔ Along next EnabledWhenDimmed es (new originalGamma ramp) :=
  Along.congr (fun _ e h => givesBack_iff h e) (fun _ _ _ h _ ht => next_saved h ht) (new_saved originalGamma ramp)

end MSWindowsScreenExtension

namespace OSXScreenExtension

def Succeed (calls : DisplayCalls) : Prop := (DisplayCalls.active calls).isSome = true ∧ ∀ d, calls.setTransfer d = true

def GivesBack (tables : DisplayID → GammaTable) (s : OSXScreenExtension) (e : ScreenCall DisplayCalls) : Prop :=
  ∀ calls ∈ e.givesBack, Succeed calls → ∀ t, s.next e = some t → t.displays = tables

def Bright (s : OSXScreenExtension) (info : DisplayGammaInfo) : Prop :=
  info.gammaStored = true → s.displays info.displayID = info.original

def LosesNothing (s : OSXScreenExtension) (e : ScreenCall DisplayCalls) : Prop :=
  ∀ calls ∈ e.givesBack,
    (s.options.enabled = true → s.isDimmed = true → (DisplayCalls.active calls).isSome = true →
      ∀ info ∈ s.displayGammaInfo, calls.setTransfer info.displayID = true ∨ s.Bright info) ∧
    (Succeed calls → s.options.enabled = true ∨ s.isDimmed = false ∨ ∀ info ∈ s.displayGammaInfo, s.Bright info)

structure Saved (tables : DisplayID → GammaTable) (displays : DisplayID → GammaTable) (infos : List DisplayGammaInfo) : Prop where
  stored : ∀ info ∈ infos, info.gammaStored = true → info.original = tables info.displayID
  known : ∀ d, displays d = tables d ∨ ∃ info ∈ infos, info.displayID = d ∧ info.gammaStored = true

structure Inv (tables : DisplayID → GammaTable) (s : OSXScreenExtension) : Prop where
  saved : Saved tables s.displays s.displayGammaInfo
  light : s.isDimmed = false → s.displays = tables

variable {s t : OSXScreenExtension} {tables : DisplayID → GammaTable} {e : ScreenCall DisplayCalls} {calls : DisplayCalls}
  {pass : Pass} {o : DimmingOptions}

structure PassInv (tables : DisplayID → GammaTable) (pass : Pass) : Prop where
  saved : Saved tables pass.displays pass.displayGammaInfo
  light : pass.anySuccess = false → pass.displays = tables

lemma Saved.append_unstored {displays : DisplayID → GammaTable} {infos : List DisplayGammaInfo}
    (h : Saved tables displays infos) (d : DisplayID) (table : GammaTable) :
    Saved tables displays (infos ++ [⟨d, table, false⟩]) where
  stored info hinfo hstored := by
    rcases List.mem_append.mp hinfo with hinfo | hinfo
    · exact h.stored info hinfo hstored
    · obtain rfl := List.mem_singleton.mp hinfo
      exact absurd hstored Bool.noConfusion
  known d' := (h.known d').imp_right fun ⟨info, hinfo, hknown⟩ => ⟨info, List.mem_append_left _ hinfo, hknown⟩

lemma dimDisplay_inv (h : PassInv tables pass) {d : DisplayID} (hd : pass.displays d = tables d) :
    PassInv tables (dimDisplay o calls pass d) := by
  simp only [dimDisplay]
  split_ifs
  · refine ⟨⟨?_, ?_⟩, fun hnone => absurd hnone Bool.noConfusion⟩
    · intro info hinfo hstored
      rcases List.mem_append.mp hinfo with hinfo | hinfo
      · exact h.saved.stored info hinfo hstored
      · obtain rfl := List.mem_singleton.mp hinfo
        exact hd
    · intro d'
      by_cases heq : d' = d
      · exact .inr ⟨⟨d, pass.displays d, true⟩, by simp, heq.symm, rfl⟩
      · dsimp only
        rw [Function.update_of_ne heq]
        exact (h.saved.known d').imp_right fun ⟨info, hinfo, hknown⟩ => ⟨info, List.mem_append_left _ hinfo, hknown⟩
  · exact ⟨h.saved.append_unstored d _, h.light⟩
  · exact ⟨h.saved.append_unstored d _, h.light⟩

lemma displays_dimDisplay {d d' : DisplayID} (hne : d' ≠ d) :
    (dimDisplay o calls pass d).displays d' = pass.displays d' := by
  simp only [dimDisplay]
  split_ifs
  · exact Function.update_of_ne hne _ _
  · rfl
  · rfl

lemma foldl_dimDisplay {displays : List DisplayID} (hdistinct : displays.Nodup) (h : PassInv tables pass)
    (hlight : ∀ d ∈ displays, pass.displays d = tables d) :
    PassInv tables (displays.foldl (dimDisplay o calls) pass) := by
  induction displays generalizing pass with
  | nil => exact h
  | cons d displays ih =>
    obtain ⟨hd, hrest⟩ := List.nodup_cons.mp hdistinct
    apply ih hrest (dimDisplay_inv h (hlight d List.mem_cons_self))
    intro d' hd'
    have hne : d' ≠ d := by
      rintro rfl
      exact hd hd'
    rw [displays_dimDisplay hne]
    exact hlight d' (List.mem_cons_of_mem d hd')

lemma foldl_restoreDisplay {infos : List DisplayGammaInfo}
    (hstored : ∀ info ∈ infos, info.gammaStored = true → info.original = tables info.displayID)
    (hset : ∀ info ∈ infos, info.gammaStored = true →
      calls.setTransfer info.displayID = true ∨ pass.displays info.displayID = tables info.displayID)
    {d : DisplayID} (hd : pass.displays d = tables d ∨ ∃ info ∈ infos, info.displayID = d ∧ info.gammaStored = true) :
    (infos.foldl (restoreDisplay calls) pass).displays d = tables d := by
  induction infos generalizing pass with
  | nil => exact hd.resolve_right fun ⟨info, hinfo, _⟩ => absurd hinfo List.not_mem_nil
  | cons info infos ih =>
    have hkept {d : DisplayID} (hd : pass.displays d = tables d) : (restoreDisplay calls pass info).displays d = tables d := by
      rw [restoreDisplay]
      split_ifs with hrestored
      · dsimp only
        by_cases heq : d = info.displayID
        · rw [heq, Function.update_self]
          exact hstored info List.mem_cons_self (Bool.and_eq_true_iff.mp hrestored).1
        · rw [Function.update_of_ne heq, hd]
      · exact hd
    have hdone (hinfo : info.gammaStored = true) :
        (restoreDisplay calls pass info).displays info.displayID = tables info.displayID := by
      rcases hset info List.mem_cons_self hinfo with hcall | hlight
      · rw [restoreDisplay, if_pos (by rw [hinfo, hcall]; rfl)]
        dsimp only
        rw [Function.update_self]
        exact hstored info List.mem_cons_self hinfo
      · exact hkept hlight
    apply ih
    · exact fun i hi => hstored i (List.mem_cons_of_mem info hi)
    · exact fun i hi hstored' => (hset i (List.mem_cons_of_mem info hi) hstored').imp_right hkept
    · rcases hd with hd | ⟨i, hi, rfl, hstored'⟩
      · exact .inl (hkept hd)
      · rcases List.mem_cons.mp hi with rfl | hi
        · exact .inl (hdone hstored')
        · exact .inr ⟨i, hi, rfl, hstored'⟩

lemma dimScreen_true (h : s.Inv tables) (calls : DisplayCalls) : (s.dimScreen true calls).Inv tables := by
  rw [dimScreen]
  by_cases henabled : s.options.enabled = true
  swap
  · rw [if_pos (by simpa using henabled)]
    exact h
  by_cases hdim : true = s.isDimmed
  · rw [if_neg (by simpa using henabled), if_pos hdim]
    exact h
  rw [if_neg (by simpa using henabled), if_neg hdim]
  cases hactive : DisplayCalls.active calls with
  | none => exact h
  | some displays =>
    have hlight : s.displays = tables := h.light (by simpa using hdim)
    have hdistinct : displays.Nodup := by
      apply calls.distinct
      rw [DisplayCalls.active] at hactive
      split at hactive
      · cases hactive
      · cases hactive
      · exact hactive
    have hstart : PassInv tables ⟨s.displays, [], false⟩ :=
      ⟨⟨fun info hinfo => absurd hinfo List.not_mem_nil, fun d => .inl (congrFun hlight d)⟩, fun _ => hlight⟩
    have hpass : PassInv tables (displays.foldl (dimDisplay s.options calls) ⟨s.displays, [], false⟩) :=
      foldl_dimDisplay hdistinct hstart fun d _ => congrFun hlight d
    dsimp only
    rw [if_pos rfl]
    split_ifs with hany
    · exact ⟨hpass.saved, fun hdimmed => absurd hdimmed Bool.noConfusion⟩
    · have hall := hpass.light (Bool.eq_false_iff.mpr hany)
      exact ⟨⟨fun info hinfo => absurd hinfo List.not_mem_nil, fun d => .inl (congrFun hall d)⟩, fun _ => hall⟩

lemma dimScreen_false (h : s.Inv tables) (henabled : s.options.enabled = true) (hdimmed : s.isDimmed = true)
    (hactive : (DisplayCalls.active calls).isSome = true)
    (hset : ∀ info ∈ s.displayGammaInfo, calls.setTransfer info.displayID = true ∨ s.Bright info) :
    (s.dimScreen false calls).displays = tables ∧ (s.dimScreen false calls).displayGammaInfo = [] := by
  obtain ⟨displays, hdisplays⟩ := Option.isSome_iff_exists.mp hactive
  have hrestored (d : DisplayID) :
      (s.displayGammaInfo.foldl (restoreDisplay calls) ⟨s.displays, [], false⟩).displays d = tables d := by
    apply foldl_restoreDisplay h.saved.stored _ (h.saved.known d)
    intro info hinfo hstored
    exact (hset info hinfo).imp_right fun hbright => (hbright hstored).trans (h.saved.stored info hinfo hstored)
  rw [dimScreen, henabled, hdimmed, hdisplays]
  exact ⟨funext hrestored, rfl⟩

lemma dimScreen_idle (hidle : s.options.enabled = false ∨ s.isDimmed = false ∨ (DisplayCalls.active calls).isSome = false) :
    s.dimScreen false calls = s := by
  rw [dimScreen]
  rcases hidle with henabled | hlight | hinactive
  · rw [henabled]
    rfl
  · rw [if_pos hlight.symm, ite_self]
  · rw [Option.isSome_eq_false_iff, Option.isNone_iff_eq_none] at hinactive
    rw [hinactive]
    dsimp only
    rw [ite_self, ite_self]

lemma next_givesBack (h : calls ∈ e.givesBack) : s.next e = some (s.dimScreen false calls) := by
  cases e with
  | setOptions options => cases h
  | dimScreen dim calls' =>
    cases dim with
    | false =>
      obtain rfl := Option.some.inj h
      rfl
    | true => cases h
  | destroy calls' =>
    obtain rfl := Option.some.inj h
    rfl

lemma dimScreen_false_inv (h : s.Inv tables) (hmeets : s.LosesNothing e) (hgives : calls ∈ e.givesBack) :
    (s.dimScreen false calls).Inv tables := by
  by_cases hrestores : s.options.enabled = true ∧ s.isDimmed = true ∧ (DisplayCalls.active calls).isSome = true
  · obtain ⟨henabled, hdimmed, hactive⟩ := hrestores
    obtain ⟨hdisplays, hinfos⟩ := dimScreen_false h henabled hdimmed hactive
      ((hmeets calls hgives).1 henabled hdimmed hactive)
    refine ⟨⟨?_, fun d => .inl (congrFun hdisplays d)⟩, fun _ => hdisplays⟩
    rw [hinfos]
    exact fun info hinfo => absurd hinfo List.not_mem_nil
  · rw [dimScreen_idle]
    · exact h
    · simp only [not_and_or, Bool.not_eq_true] at hrestores
      exact hrestores

lemma next_inv (h : s.Inv tables) (hmeets : s.LosesNothing e) (ht : s.next e = some t) : t.Inv tables := by
  cases hgives : e.givesBack with
  | some calls =>
    rw [next_givesBack hgives] at ht
    obtain rfl := Option.some.inj ht
    exact dimScreen_false_inv h hmeets hgives
  | none =>
    cases e with
    | setOptions options =>
      obtain rfl := Option.some.inj ht
      exact ⟨h.saved, h.light⟩
    | dimScreen dim calls =>
      cases dim with
      | false => cases hgives
      | true =>
        obtain rfl := Option.some.inj ht
        exact dimScreen_true h calls
    | destroy calls => cases hgives

lemma givesBack_of_losesNothing (h : s.Inv tables) (hmeets : s.LosesNothing e) : s.GivesBack tables e := by
  intro calls hgives hcalls t ht
  rw [next_givesBack hgives] at ht
  obtain rfl := Option.some.inj ht
  by_cases hrestores : s.options.enabled = true ∧ s.isDimmed = true
  · obtain ⟨henabled, hdimmed⟩ := hrestores
    exact (dimScreen_false h henabled hdimmed hcalls.1 fun info _ => .inl (hcalls.2 info.displayID)).1
  rw [dimScreen_idle (by simp only [not_and_or, Bool.not_eq_true] at hrestores; exact hrestores.imp_right .inl)]
  rcases (hmeets calls hgives).2 hcalls with henabled | hlight | hbright
  · exact h.light (by simpa [henabled] using hrestores)
  · exact h.light hlight
  · funext d
    rcases h.saved.known d with hd | ⟨info, hinfo, rfl, hstored⟩
    · exact hd
    · rw [hbright info hinfo hstored, h.saved.stored info hinfo hstored]

lemma new_inv (tables : DisplayID → GammaTable) : (new tables).Inv tables :=
  ⟨⟨fun _ hinfo => absurd hinfo List.not_mem_nil, fun _ => .inl rfl⟩, fun _ => rfl⟩

lemma givesBack_along {es : List (ScreenCall DisplayCalls)} (h : s.Inv tables) (hmeets : Along next LosesNothing es s) :
    Along next (GivesBack tables) es s := by
  induction es generalizing s with
  | nil => trivial
  | cons e es ih =>
    obtain ⟨he, hrest⟩ := hmeets
    exact ⟨givesBack_of_losesNothing h he, fun t ht => ih (next_inv h he ht) (hrest t ht)⟩

end OSXScreenExtension

/-- On Windows the brightness is given back exactly as long as dimming is not off while it is wanted back, and on
macOS if also no display is left out. -/
theorem brightness_given_back (originalGamma ramp : GammaRamp) (es : List (ScreenCall GammaCalls))
    (tables : DisplayID → GammaTable) (es' : List (ScreenCall DisplayCalls)) :
    (Along MSWindowsScreenExtension.next (MSWindowsScreenExtension.GivesBack ramp) es (.new originalGamma ramp) ↔
      Along MSWindowsScreenExtension.next MSWindowsScreenExtension.EnabledWhenDimmed es (.new originalGamma ramp)) ∧
    (Along OSXScreenExtension.next OSXScreenExtension.LosesNothing es' (.new tables) →
      Along OSXScreenExtension.next (OSXScreenExtension.GivesBack tables) es' (.new tables)) :=
  ⟨MSWindowsScreenExtension.givesBack_along originalGamma ramp es,
    OSXScreenExtension.givesBack_along (OSXScreenExtension.new_inv tables)⟩

section Failures

def working : GammaCalls := ⟨true, true, true⟩

def switchedOff : List (ScreenCall GammaCalls) :=
  [.dimScreen true working, .setOptions [kOptionScreenDimmingEnabled, 0], .dimScreen false working]

def twoDisplays (second : Bool) : DisplayCalls where
  displayCount := some 2
  displayList := some [1, 2]
  distinct displays h := by
    obtain rfl := Option.some.inj h
    decide
  getTransfer _ := some 256
  setTransfer d := d ≠ 2 || second

def oneFailure : List (ScreenCall DisplayCalls) :=
  [.dimScreen true (twoDisplays true), .dimScreen false (twoDisplays false), .dimScreen false (twoDisplays true)]

lemma setTransfer_twoDisplays (d : DisplayID) : (twoDisplays true).setTransfer d = true := Bool.or_true _

lemma oneFailure_dimmed : ((((OSXScreenExtension.new fun _ _ _ => 1).dimScreen true (twoDisplays true)).dimScreen false
    (twoDisplays false)).dimScreen false (twoDisplays true)).displays 2 0 0 ≠ 1 := by decide +kernel

theorem brightness_kept :
    ¬ (∀ originalGamma ramp es, Along MSWindowsScreenExtension.next (MSWindowsScreenExtension.GivesBack ramp) es
      (.new originalGamma ramp)) ∧
    ¬ ∀ tables es, Along OSXScreenExtension.next (OSXScreenExtension.GivesBack tables) es (.new tables) := by
  constructor
  · intro h
    have halong := (MSWindowsScreenExtension.givesBack_along _ _ _).mp (h (fun _ => 1000) (fun _ => 1000) switchedOff)
    have hthird := ((halong.2 _ rfl).2 _ rfl).1 working rfl ⟨rfl, rfl⟩
    rcases hthird with henabled | hlight | hsame
    · exact absurd henabled (by decide)
    · exact absurd hlight (by decide)
    · exact absurd (congrFun hsame 0) (by decide +kernel)
  · intro h
    have hthird := (((h (fun _ _ _ => 1) oneFailure).2 _ rfl).2 _ rfl).1 (twoDisplays true) rfl ⟨rfl, setTransfer_twoDisplays⟩ _ rfl
    exact absurd (congrFun (congrFun (congrFun hthird 2) 0) 0) oneFailure_dimmed

theorem brightness_given_back_once : Along OSXScreenExtension.next (OSXScreenExtension.GivesBack fun _ _ _ => 1)
    [.dimScreen true (twoDisplays true), .dimScreen false (twoDisplays true)] (.new fun _ _ _ => 1) := by
  apply (brightness_given_back (fun _ => 0) (fun _ => 0) [] (fun _ _ _ => 1) _).2
  constructor
  · intro calls hcalls
    cases hcalls
  intro t ht
  obtain rfl := Option.some.inj ht
  refine ⟨?_, fun _ _ => trivial⟩
  intro calls hcalls
  obtain rfl := Option.some.inj hcalls
  exact ⟨fun _ _ _ info _ => .inl (setTransfer_twoDisplays info.displayID), fun _ => .inl (by decide)⟩

end Failures

end InputLeap.Platform
