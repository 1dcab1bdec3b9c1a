import InputLeap.Gui.CoreRuns

/-! A core runs what the settings and the layout say, as soon as no timer is left that would start it again. The timer of
an edit must not expire while the core is being launched, for then the edit is forgotten. -/

namespace InputLeap.Gui

open InputLeap.Lib

namespace CoreControl

variable {prepare : Name → Name} {c d : CoreControl} {now : Circumstances}

def RunsSettings (c : CoreControl) : Prop :=
  c.runState = .running → c.applyTimer = false → c.restartTimer = false →
    c.launchSignature = c.settings.launchSignature

/-- A core that runs, or will run without being started again. -/
def Launched (c : CoreControl) : Prop := c.runState = .running ∨ c.process = some .launching

structure AppliedInv (c : CoreControl) : Prop where
  applied : Launched c → c.applyTimer = true ∨ c.launchSignature = c.settings.launchSignature
  signed : Launched c → c.launchSignature ≠ []
  buildable : c.settings.buildable = true

def CanLaunch : ControlEvent → Prop
  | .edit settings => settings.buildable = true
  | .start now => now.writes = true
  | .restart now => now.writes = true
  | .restartTimeout now => now.writes = true
  | .acceptTrust now => now.writes = true
  | .applyTimeout now => now.writes = true
  | _ => True

/-- No timer of an edit expires while the core is being launched with something else. -/
def Applicable (c : CoreControl) (e : ControlEvent) : Prop :=
  CanLaunch e ∧
    ∀ now, e = .applyTimeout now →
      c.settings.launchSignature = c.launchSignature ∨ c.dryRun = false ∧ c.process ≠ some .launching

def plan (c : CoreControl) : CoreSettings × Name × Bool := (c.settings, c.launchSignature, c.applyTimer)

section Steps

lemma AppliedInv.congr (h : AppliedInv c) (hplan : d.plan = c.plan) (hlaunched : Launched d → Launched c) : AppliedInv d := by
  obtain ⟨hsettings, hrest⟩ := Prod.ext_iff.mp hplan
  obtain ⟨hsignature, htimer⟩ := Prod.ext_iff.mp hrest
  have hsettings : d.settings = c.settings := hsettings
  have hsignature : d.launchSignature = c.launchSignature := hsignature
  have htimer : d.applyTimer = c.applyTimer := htimer
  constructor
  · intro hd
    rw [hsettings, hsignature, htimer]
    exact h.applied (hlaunched hd)
  · intro hd
    rw [hsignature]
    exact h.signed (hlaunched hd)
  · rw [hsettings]
    exact h.buildable

lemma plan_setState (c : CoreControl) (state : CoreState) : (c.setState state).plan = c.plan := by
  rw [setState]
  split
  · rfl
  · rw [onCoreStateChanged]
    cases state with
    | starting | running | stopping | failed => rfl
    | stopped =>
      dsimp only
      split
      · rfl
      · rfl

lemma launched_setState {state : CoreState} (hstate : state ≠ .running) (h : Launched (c.setState state)) : Launched c := by
  rw [setState] at h
  split at h
  · exact h
  · rw [onCoreStateChanged] at h
    cases state with
    | running => exact absurd rfl hstate
    | starting | stopping | failed => exact h.elim (fun hrun => absurd hrun (by simp)) .inr
    | stopped =>
      dsimp only at h
      split at h
      · exact h
      · refine h.elim (fun hrun => ?_) .inr
        dsimp only at hrun
        split_ifs at hrun

lemma plan_onCoreExited (c : CoreControl) (unexpected long : Bool) : (c.onCoreExited unexpected long).plan = c.plan := by
  rcases onCoreExited_cases c unexpected long with ⟨hexited, -⟩ | hexited | ⟨exits, -, hexited | hexited⟩
  · rw [hexited]
  · rw [hexited]
    rfl
  · rw [hexited]
    rfl
  · rw [hexited]
    rfl

lemma launched_onCoreExited {unexpected long : Bool} (h : Launched (c.onCoreExited unexpected long)) : Launched c := by
  rcases onCoreExited_cases c unexpected long with ⟨hexited, -⟩ | hexited | ⟨exits, -, hexited | hexited⟩
  · rwa [hexited] at h
  · rw [hexited] at h
    exact h.elim (fun hrun => absurd hrun (by simp)) .inr
  · rw [hexited] at h
    exact h.elim (fun hrun => absurd hrun (by simp)) .inr
  · rw [hexited] at h
    exact h.elim (fun hrun => absurd hrun (by simp)) .inr

lemma plan_notify (c : CoreControl) (notice : Notice) : (c.notify notice).plan = c.plan := by
  cases notice with
  | started => exact plan_setState _ _
  | failedToStart => exact plan_setState _ _
  | finished long => exact (plan_onCoreExited _ _ _).trans (plan_setState _ _)

lemma launched_notify {notice : Notice} (hreports : c.reports notice = true) (h : Launched (c.notify notice)) :
    Launched c := by
  cases notice with
  | started => exact .inr (of_decide_eq_true hreports)
  | failedToStart => exact .inr (of_decide_eq_true hreports)
  | finished long =>
    have hset := launched_setState (c := { c with process := none }) (by simp) (launched_onCoreExited h)
    exact hset.elim .inl fun hprocess => absurd hprocess (by simp)

lemma waitFor_spec (c : CoreControl) (notices : List Notice) :
    (c.waitFor notices).plan = c.plan ∧ (Launched (c.waitFor notices) → Launched c) := by
  rw [waitFor]
  induction notices generalizing c with
  | nil => exact ⟨rfl, id⟩
  | cons notice notices ih =>
    rw [List.foldl_cons]
    split_ifs with hreports
    · obtain ⟨hplan, hlaunched⟩ := ih (c.notify notice)
      exact ⟨hplan.trans (plan_notify c notice), fun h => launched_notify hreports (hlaunched h)⟩
    · exact ih c

lemma stopCore_spec (c : CoreControl) (notices : List Notice) :
    (c.stopCore notices).plan = c.plan ∧ (Launched (c.stopCore notices) → Launched c) := by
  have hset (state : CoreState) (hstate : state ≠ .running) :
      (setState { c with stopRequested := true } state).plan = c.plan ∧
        (Launched (setState { c with stopRequested := true } state) → Launched c) :=
    ⟨plan_setState _ _, launched_setState (c := { c with stopRequested := true }) hstate⟩
  rw [stopCore]
  dsimp only
  split
  · split
    · exact ⟨rfl, id⟩
    · exact hset .stopped (by simp)
  · split
    · exact hset .stopped (by simp)
    · rename_i child _
      split
      · exact ⟨rfl, id⟩
      · obtain ⟨hplan, hlaunched⟩ := hset .stopping (by simp)
        have hwait := waitFor_spec { setState { c with stopRequested := true } .stopping with
          signalled := (setState { c with stopRequested := true } .stopping).signalled ++ [child] } notices
        exact ⟨hwait.1.trans hplan, fun h => hlaunched (hwait.2 h)⟩

lemma stop_spec (c : CoreControl) (now : Circumstances) :
    (c.stop now).plan = c.plan ∧ (Launched (c.stop now) → c.process = some .launching) := by
  rw [stop]
  dsimp only
  split
  · exact ⟨rfl, fun h => h.elim (fun hrun => absurd hrun (by simp)) id⟩
  · obtain ⟨hplan, hlaunched⟩ := stopCore_spec
      { c with wantRunning := false, restartTimer := false, runState := .stopping } now.notices
    exact ⟨hplan, fun h => (hlaunched h).elim (fun hrun => absurd hrun (by simp)) id⟩

lemma AppliedInv.stop (h : AppliedInv c) (now : Circumstances) : AppliedInv (c.stop now) :=
  h.congr (stop_spec c now).1 fun hlaunched => .inr ((stop_spec c now).2 hlaunched)

lemma launchSignature_ne_nil {settings : CoreSettings} (h : settings.buildable = true) : settings.launchSignature ≠ [] := by
  rw [CoreSettings.launchSignature, if_pos h]
  simp

lemma plan_startCore (c : CoreControl) (launches : Bool) : (c.startCore launches).plan = c.plan := by
  rw [startCore]
  split
  · rfl
  · dsimp only
    split
    · exact plan_setState _ _
    · have hset := plan_setState { c with stopRequested := false } .starting
      split
      · exact hset
      · exact (plan_notify _ _).trans hset

lemma appliedInv_startCore (hsame : c.launchSignature = c.settings.launchSignature) (hbuildable : c.settings.buildable = true)
    (launches : Bool) : AppliedInv (c.startCore launches) := by
  obtain ⟨hsettings, hrest⟩ := Prod.ext_iff.mp (plan_startCore c launches)
  have hsettings : (c.startCore launches).settings = c.settings := hsettings
  have hsignature : (c.startCore launches).launchSignature = c.launchSignature := (Prod.ext_iff.mp hrest).1
  constructor
  · intro _
    rw [hsettings, hsignature]
    exact .inr hsame
  · intro _
    rw [hsignature, hsame]
    exact launchSignature_ne_nil hbuildable
  · rw [hsettings]
    exact hbuildable

lemma AppliedInv.start (h : AppliedInv c) (hwrites : now.writes = true) : AppliedInv (c.start prepare now) := by
  rw [CoreControl.start]
  split
  · exact h
  · have hbuildable : (prepared prepare { c with wantRunning := true, pausedForTrust := false }).settings.buildable = true :=
      h.buildable
    dsimp only
    rw [if_neg (by rw [hbuildable, hwrites]; simp)]
    apply appliedInv_startCore
    · rfl
    · exact hbuildable

lemma AppliedInv.restart (h : AppliedInv c) (hwrites : now.writes = true) : AppliedInv (c.restart prepare now) := by
  rw [CoreControl.restart]
  split
  · exact h.start hwrites
  · exact (h.stop now).congr rfl id

lemma AppliedInv.applyIfChanged (h : AppliedInv c)
    (hok : c.settings.launchSignature = c.launchSignature ∨ c.dryRun = false ∧ c.process ≠ some .launching) :
    AppliedInv (applyIfChanged prepare { c with applyTimer := false } now) := by
  have hsilent (hsame : Launched c → c.launchSignature = c.settings.launchSignature) :
      AppliedInv { c with applyTimer := false } :=
    ⟨fun hlaunched => .inr (hsame hlaunched), h.signed, h.buildable⟩
  rw [CoreControl.applyIfChanged]
  dsimp only
  split
  · rename_i hidle
    apply hsilent
    intro hlaunched
    rcases hok with hsame | ⟨hwet, hprocess⟩
    · exact hsame.symm
    · rcases hlaunched with hrun | hlaunching
      · rcases hidle with hidle | hdry
        · exact absurd hrun hidle
        · exact absurd (hwet.symm.trans hdry) (by simp)
      · exact absurd hlaunching hprocess
  · rename_i hbusy
    rw [not_or, not_not] at hbusy
    split
    · rename_i hsame
      apply hsilent
      intro hlaunched
      rcases hsame with hnone | hnone | hsame
      · exact absurd hnone (launchSignature_ne_nil h.buildable)
      · exact absurd hnone (h.signed hlaunched)
      · exact hsame.symm
    · rename_i hchanged
      rw [not_or, not_or] at hchanged
      obtain ⟨-, hprocess⟩ := hok.resolve_left hchanged.2.2
      rw [CoreControl.restart, if_neg (by simp [hbusy.1])]
      -- the core goes, so that nothing is said about what it runs
      obtain ⟨hplan, hlaunched⟩ := stop_spec { c with applyTimer := false } now
      have hgone : ¬Launched (CoreControl.stop { c with applyTimer := false } now) := fun h => hprocess (hlaunched h)
      refine ⟨fun h => absurd h hgone, fun h => absurd h hgone, ?_⟩
      obtain ⟨hsettings, -⟩ := Prod.ext_iff.mp hplan
      exact (congrArg CoreSettings.buildable hsettings).trans h.buildable

lemma AppliedInv.next {e : ControlEvent} (h : AppliedInv c) (hok : Applicable c e) (hnext : c.next prepare e = some d) :
    AppliedInv d := by
  cases e with
  | start now =>
    obtain rfl := Option.some.inj hnext
    exact h.start hok.1
  | stop now =>
    obtain rfl := Option.some.inj hnext
    exact h.stop now
  | restart now =>
    obtain rfl := Option.some.inj hnext
    exact h.restart hok.1
  | restartTimeout now =>
    obtain ⟨-, heq⟩ := Option.ite_none_right_eq_some.mp hnext
    obtain rfl := Option.some.inj heq
    rw [CoreControl.restartTimeout]
    dsimp only
    split
    · apply AppliedInv.start _ hok.1
      exact h.congr rfl fun hlaunched => hlaunched.elim (fun hrun => absurd hrun (by simp)) .inr
    · exact h.congr rfl id
  | notice notice =>
    obtain ⟨hreports, heq⟩ := Option.ite_none_right_eq_some.mp hnext
    obtain rfl := Option.some.inj heq
    exact h.congr (plan_notify c notice) (launched_notify hreports)
  | pauseForTrust now =>
    obtain rfl := Option.some.inj hnext
    exact (h.congr (d := { c with pausedForTrust := true }) rfl id).stop now
  | acceptTrust now =>
    obtain rfl := Option.some.inj hnext
    split
    · exact (h.congr (d := { c with pausedForTrust := false }) rfl id).start hok.1
    · exact h
  | rejectTrust =>
    obtain rfl := Option.some.inj hnext
    exact h.congr rfl id
  | connected =>
    obtain rfl := Option.some.inj hnext
    exact h.congr rfl id
  | edit settings =>
    obtain rfl := Option.some.inj hnext
    exact ⟨fun _ => .inl rfl, h.signed, hok.1⟩
  | applyTimeout now =>
    obtain ⟨-, heq⟩ := Option.ite_none_right_eq_some.mp hnext
    obtain rfl := Option.some.inj heq
    exact h.applyIfChanged (hok.2 now rfl)

end Steps

def Buildable (c : CoreControl) : Prop := Initial c ∧ c.settings.buildable = true

/-- A core that runs undisturbed runs the settings and the layout as they are. -/
theorem runs_settings (prepare : Name → Name) (c : CoreControl)
    (h : Reachable Buildable (next prepare) Applicable c) : c.RunsSettings := by
  have hinv : AppliedInv c := by
    apply h.invariant
    · rintro c ⟨hc, hbuildable⟩
      rw [Initial] at hc
      have hidle : ¬Launched c := by
        rw [hc]
        simp [Launched, new]
      exact ⟨fun h => absurd h hidle, fun h => absurd h hidle, hbuildable⟩
    · exact fun c e d hc hok hnext => hc.next hok hnext
  intro hrun htimer _
  exact (hinv.applied (.inl hrun)).resolve_left (by rw [htimer]; exact Bool.false_ne_true)

instance : Decidable (RunsSettings c) := inferInstanceAs (Decidable (_ → _ → _ → _))

instance : ∀ e, Decidable (CanLaunch e)
  | .edit settings => inferInstanceAs (Decidable (settings.buildable = true))
  | .start now | .restart now | .restartTimeout now | .acceptTrust now | .applyTimeout now =>
    inferInstanceAs (Decidable (now.writes = true))
  | .stop _ | .notice _ | .pauseForTrust _ | .rejectTrust | .connected => .isTrue trivial

def isApplyTimeout : ControlEvent → Bool
  | .applyTimeout _ => true
  | _ => false

instance (c : CoreControl) (e : ControlEvent) : Decidable (Applicable c e) :=
  decidable_of_iff
    (CanLaunch e ∧ (isApplyTimeout e = true →
      c.settings.launchSignature = c.launchSignature ∨ c.dryRun = false ∧ c.process ≠ some .launching))
    (and_congr_right fun _ => by cases e <;> simp [isApplyTimeout])

def servedAnew : CoreSettings := { served with configText := some ['d'] }

theorem runs_settings_edited : ∃ c : CoreControl, c.RunsSettings ∧ c.runState = .running ∧ c.settings = servedAnew := by
  obtain ⟨c, hreached, hrun, hsettings⟩ : ∃ c, Reachable Buildable (next id) Applicable c ∧
      c.runState = .running ∧ c.settings = servedAnew :=
    Reachable.exists_of_run (s := new false false served) ⟨rfl, rfl⟩
      [.start calm, .notice .started, .edit servedAnew, .applyTimeout ⟨true, true, [.finished false]⟩, .restartTimeout calm,
        .notice .started] (by decide)
  exact ⟨c, runs_settings id c hreached, hrun, hsettings⟩

/-- The timer of an edit expires while the core is being launched. -/
theorem runs_settings_of_before : ¬∀ (prepare : Name → Name) (c : CoreControl),
    Reachable Buildable (next prepare) (fun _ e => CanLaunch e) c → c.RunsSettings := by
  intro h
  obtain ⟨c, hreached, hnot⟩ : ∃ c, Reachable Buildable (next id) (fun _ e => CanLaunch e) c ∧ ¬c.RunsSettings :=
    Reachable.exists_of_run (s := new false false served) ⟨rfl, rfl⟩
      [.start calm, .edit servedAnew, .applyTimeout calm, .notice .started] (by decide)
  exact hnot (h id c hreached)

end CoreControl

end InputLeap.Gui
