import InputLeap.Gui.CoreControl

/-! What holds of the process and of the window after every event. The window is not stuck, and signals only a process
that runs, as long as it is not stopped after a failed start and what was stopped for a restart exits in time. -/

namespace InputLeap.Gui

open InputLeap.Lib

namespace CoreControl

variable {prepare : Name → Name} {c d : CoreControl} {now : Circumstances}

/-- Signals are for a process that has an id, and the window waits for a process or for its timer only. -/
structure NeverStuck (c : CoreControl) : Prop where
  signals : ∀ child ∈ c.signalled, child.hasPid = true
  waits : c.runState = .starting ∨ c.runState = .stopping →
    (∃ child, c.process = some child ∧ child.hasPid = true) ∨ c.restartTimer = true

/-- The states of the core, of its process and of the window that belong together. `restarts` says that the core is
started again when the timer expires. -/
inductive Agrees : (service : Bool) → CoreState → Option Child → RunState → (restarts : Bool) → Prop
  | stopped {service : Bool} {run : RunState} {restarts : Bool}
      (h : run = .starting ∨ run = .stopping → restarts = true) : Agrees service .stopped none run restarts
  | failed {restarts : Bool} : Agrees false .failed (some .dead) .failed restarts
  | starting {restarts : Bool} : Agrees false .starting (some .launching) .starting restarts
  | running {restarts : Bool} : Agrees false .running (some .alive) .running restarts
  | served {restarts : Bool} : Agrees true .running none .running restarts
  | stopping {child : Child} {restarts : Bool} (h : child.hasPid = true) :
      Agrees false .stopping (some child) .stopping restarts

def restarts (c : CoreControl) : Bool := c.restartTimer && c.wantRunning

def Consistent (c : CoreControl) : Prop := Agrees c.service c.coreState c.process c.runState c.restarts

structure ControlInv (c : CoreControl) : Prop where
  agrees : Consistent c
  signals : ∀ child ∈ c.signalled, child.hasPid = true

section Steps

lemma ControlInv.neverStuck (h : ControlInv c) : NeverStuck c := by
  refine ⟨h.signals, fun hwaits => ?_⟩
  have hagrees := h.agrees
  rw [Consistent] at hagrees
  generalize c.service = service at hagrees
  generalize c.coreState = core at hagrees
  generalize c.process = process at hagrees ⊢
  generalize c.runState = run at hagrees hwaits
  cases hagrees with
  | stopped h => exact .inr (Bool.and_eq_true_iff.mp (h hwaits)).1
  | failed => simp at hwaits
  | starting => exact .inl ⟨_, rfl, rfl⟩
  | running => simp at hwaits
  | served => simp at hwaits
  | stopping h => exact .inl ⟨_, rfl, h⟩

lemma Agrees.wanted {service restarts : Bool} {core : CoreState} {process : Option Child} {run : RunState}
    (h : Agrees service core process run restarts) : Agrees service core process run true := by
  cases h with
  | stopped => exact .stopped fun _ => rfl
  | failed => exact .failed
  | starting => exact .starting
  | running => exact .running
  | served => exact .served
  | stopping h => exact .stopping h

lemma Agrees.unwanted {service restarts : Bool} {core : CoreState} {process : Option Child} {run : RunState}
    (h : Agrees service core process run restarts) (hstopped : core = .stopped → restarts = false) :
    Agrees service core process run false := by
  cases h with
  | stopped h => exact .stopped fun hwaits => (hstopped rfl).symm.trans (h hwaits)
  | failed => exact .failed
  | starting => exact .starting
  | running => exact .running
  | served => exact .served
  | stopping h => exact .stopping h

/-- A stopped core does not exit after the timer that waits for it to start it again. -/
def InTime (c : CoreControl) : Notice → Prop
  | .finished _ => c.stopRequested = true → c.wantRunning = true → c.runState = .stopping → c.restartTimer = true
  | _ => True

lemma Agrees.of_launching {service restarts : Bool} {core : CoreState} {run : RunState}
    (h : Agrees service core (some .launching) run restarts) : service = false ∧ core ≠ .running ∧ core ≠ .failed := by
  cases h with
  | starting => exact ⟨rfl, by simp, by simp⟩
  | stopping => exact ⟨rfl, by simp, by simp⟩

lemma Agrees.of_alive {service restarts : Bool} {core : CoreState} {run : RunState}
    (h : Agrees service core (some .alive) run restarts) :
    core ≠ .stopped ∧ (run = .running ∨ run = .stopping) := by
  cases h with
  | running => exact ⟨by simp, .inl rfl⟩
  | stopping => exact ⟨by simp, .inr rfl⟩

lemma notify_started (h : c.coreState ≠ .running) :
    c.notify .started = { c with process := some .alive, coreState := .running, runState := .running } := if_neg h

lemma notify_failedToStart (h : c.coreState ≠ .failed) :
    c.notify .failedToStart =
      { c with process := some .dead, coreState := .failed, wantRunning := false, runState := .failed } := if_neg h

lemma notify_finished (h : c.coreState ≠ .stopped) (long : Bool) :
    c.notify (.finished long) =
      onCoreExited
        { c with
          process := none
          coreState := .stopped
          runState := if c.wantRunning then c.runState else if c.runState = .failed then .failed else .stopped }
        (!c.stopRequested) long := by
  have hset : setState { c with process := none } .stopped =
      { c with
        process := none
        coreState := .stopped
        runState := if c.wantRunning then c.runState else if c.runState = .failed then .failed else .stopped } := by
    rw [setState, if_neg h, onCoreStateChanged]
    by_cases hwant : c.wantRunning = true
    · simp [hwant]
    · simp [hwant]
  rw [notify, hset]

lemma onCoreExited_cases (c : CoreControl) (unexpected long : Bool) :
    c.onCoreExited unexpected long = c ∧ (unexpected = false ∨ c.wantRunning = false) ∨
      c.onCoreExited unexpected long = { c with runState := .stopped } ∨
      ∃ exits, c.wantRunning = true ∧
        (c.onCoreExited unexpected long = { c with unexpectedExits := exits, wantRunning := false, runState := .failed } ∨
          c.onCoreExited unexpected long = { c with unexpectedExits := exits, runState := .starting, restartTimer := true }) := by
  unfold onCoreExited
  split
  · rename_i hquiet
    split
    · exact .inr (.inl rfl)
    · exact .inl ⟨rfl, hquiet⟩
  · rename_i hloud
    rw [not_or, Bool.not_eq_false, Bool.not_eq_false] at hloud
    dsimp only
    generalize (if long = true then 0 else c.unexpectedExits) + 1 = exits
    split
    · exact .inr (.inr ⟨exits, hloud.2, .inl rfl⟩)
    · exact .inr (.inr ⟨exits, hloud.2, .inr rfl⟩)

lemma consistent_stopped (hcore : c.coreState = .stopped) (hprocess : c.process = none)
    (hwaits : c.runState = .starting ∨ c.runState = .stopping → c.restarts = true) :
    Consistent c := by
  rw [Consistent, hcore, hprocess]
  exact .stopped hwaits

lemma consistent_exited {unexpected long : Bool} (hcore : c.coreState = .stopped) (hprocess : c.process = none)
    (hrun : c.runState = .starting ∨ c.runState = .stopping → c.wantRunning = true)
    (hok : unexpected = false → c.wantRunning = true → c.runState = .starting ∨ c.runState = .stopping →
      c.restartTimer = true) :
    Consistent (c.onCoreExited unexpected long) := by
  rcases onCoreExited_cases c unexpected long with ⟨hexited, hquiet⟩ | hexited | ⟨exits, hwant, hexited | hexited⟩
  · rw [hexited]
    apply consistent_stopped hcore hprocess
    intro hwaits
    have hwant := hrun hwaits
    rcases hquiet with hexpected | hunwanted
    · exact Bool.and_eq_true_iff.mpr ⟨hok hexpected hwant hwaits, hwant⟩
    · exact absurd (hwant.symm.trans hunwanted) (by simp)
  · rw [hexited]
    exact consistent_stopped hcore hprocess (by simp)
  · rw [hexited]
    exact consistent_stopped hcore hprocess (by simp)
  · rw [hexited]
    exact consistent_stopped hcore hprocess fun _ => Bool.and_eq_true_iff.mpr ⟨rfl, hwant⟩

lemma signalled_setState (c : CoreControl) (state : CoreState) : (c.setState state).signalled = c.signalled := by
  rw [setState]
  split
  · rfl
  · rw [onCoreStateChanged]
    cases state with
    | starting | running | stopping | failed => rfl
    | stopped =>
      dsimp only
      split
      · rfl
      · rfl

lemma signalled_notify (c : CoreControl) (notice : Notice) : (c.notify notice).signalled = c.signalled := by
  cases notice with
  | started => exact signalled_setState _ _
  | failedToStart => exact signalled_setState _ _
  | finished long =>
    have hset := signalled_setState { c with process := none } .stopped
    rw [notify]
    rcases onCoreExited_cases (setState { c with process := none } .stopped) (!c.stopRequested) long with
      ⟨hexited, -⟩ | hexited | ⟨exits, -, hexited | hexited⟩
    · rw [hexited, hset]
    · rw [hexited]
      exact hset
    · rw [hexited]
      exact hset
    · rw [hexited]
      exact hset

lemma ControlInv.notify (h : ControlInv c) {notice : Notice} (hreports : c.reports notice = true) (hok : InTime c notice) :
    ControlInv (c.notify notice) := by
  refine ⟨?_, fun child hchild => h.signals child (signalled_notify c notice ▸ hchild)⟩
  have hagrees := h.agrees
  rw [Consistent] at hagrees
  cases notice with
  | started =>
    rw [of_decide_eq_true hreports] at hagrees
    obtain ⟨hservice, hcore, -⟩ := hagrees.of_launching
    rw [notify_started hcore, Consistent, hservice]
    exact .running
  | failedToStart =>
    rw [of_decide_eq_true hreports] at hagrees
    obtain ⟨hservice, -, hcore⟩ := hagrees.of_launching
    rw [notify_failedToStart hcore, Consistent, hservice]
    exact .failed
  | finished long =>
    rw [of_decide_eq_true hreports] at hagrees
    obtain ⟨hcore, hrun⟩ := hagrees.of_alive
    rw [notify_finished hcore]
    by_cases hwant : c.wantRunning = true
    · rw [if_pos hwant]
      refine consistent_exited rfl rfl (fun _ => hwant) fun hexpected _ hwaits => ?_
      apply hok (by simpa using hexpected) hwant
      rcases hrun with hrun | hrun
      · exact absurd hwaits (by simp [hrun])
      · exact hrun
    · have hneither : ¬((if c.runState = .failed then RunState.failed else .stopped) = .starting ∨
          (if c.runState = .failed then RunState.failed else .stopped) = .stopping) := by
        split_ifs
        · simp
        · simp
      rw [if_neg hwant]
      exact consistent_exited rfl rfl (fun hwaits => absurd hwaits hneither) fun _ _ hwaits => absurd hwaits hneither

lemma wantRunning_setState (h : c.wantRunning = false) (state : CoreState) : (c.setState state).wantRunning = false := by
  rw [setState]
  split
  · exact h
  · rw [onCoreStateChanged]
    cases state with
    | starting | running | stopping => exact h
    | failed => rfl
    | stopped =>
      dsimp only
      split
      · exact h
      · exact h

lemma wantRunning_notify (h : c.wantRunning = false) (notice : Notice) : (c.notify notice).wantRunning = false := by
  cases notice with
  | started => exact wantRunning_setState (c := { c with process := some .alive }) h _
  | failedToStart => exact wantRunning_setState (c := { c with process := some .dead }) h _
  | finished long =>
    have hset := wantRunning_setState (c := { c with process := none }) h .stopped
    rw [notify]
    rcases onCoreExited_cases (setState { c with process := none } .stopped) (!c.stopRequested) long with
      ⟨hexited, -⟩ | hexited | ⟨exits, hwant, -⟩
    · rwa [hexited]
    · rw [hexited]
      exact hset
    · exact absurd (hset.symm.trans hwant) (by simp)

lemma ControlInv.waitFor (h : ControlInv c) (hwant : c.wantRunning = false) (notices : List Notice) :
    ControlInv (c.waitFor notices) := by
  rw [CoreControl.waitFor]
  induction notices generalizing c with
  | nil => exact h
  | cons notice notices ih =>
    rw [List.foldl_cons]
    split_ifs with hreports
    · have hok : InTime c notice := by
        cases notice with
        | started | failedToStart => trivial
        | finished long => exact fun _ hwanted => absurd (hwant.symm.trans hwanted) (by simp)
      exact ih (h.notify hreports hok) (wantRunning_notify hwant notice)
    · exact ih h hwant

lemma Agrees.process_none {service restarts : Bool} {core : CoreState} {process : Option Child} {run : RunState}
    (h : Agrees service core process run restarts) (hnone : core = .stopped ∨ service = true) : process = none := by
  cases h with
  | stopped | served => rfl
  | failed | starting | running | stopping => simp at hnone

lemma Agrees.exists_child {restarts : Bool} {core : CoreState} {process : Option Child} {run : RunState}
    (h : Agrees false core process run restarts) (hstopped : core ≠ .stopped) (hfailed : core ≠ .failed) :
    ∃ child, process = some child ∧ child.hasPid = true := by
  cases h with
  | stopped => exact absurd rfl hstopped
  | failed => exact absurd rfl hfailed
  | starting => exact ⟨.launching, rfl, rfl⟩
  | running => exact ⟨.alive, rfl, rfl⟩
  | stopping h => exact ⟨_, rfl, h⟩

lemma setState_stopping (h : c.runState = .stopping) : c.setState .stopping = { c with coreState := .stopping } := by
  rw [setState]
  split
  · rename_i hcore
    rw [← hcore]
  · rw [onCoreStateChanged, ← h]

lemma setState_stopped (hcore : c.coreState ≠ .stopped) (hwant : c.wantRunning = false) (hrun : c.runState = .stopping) :
    c.setState .stopped = { c with coreState := .stopped, runState := .stopped } := by
  rw [setState, if_neg hcore, onCoreStateChanged]
  simp [hwant, hrun]

lemma controlInv_stopCore (hprocess : c.service = true → c.process = none)
    (hchild : c.service = false → ∃ child, c.process = some child ∧ child.hasPid = true) (hcore : c.coreState ≠ .stopped)
    (hwant : c.wantRunning = false) (hrun : c.runState = .stopping)
    (hsignals : ∀ child ∈ c.signalled, child.hasPid = true) (notices : List Notice) :
    ControlInv (c.stopCore notices) := by
  rw [stopCore]
  dsimp only
  by_cases hservice : c.service = true
  · have hset := setState_stopped (c := { c with stopRequested := true }) hcore hwant hrun
    rw [if_pos hservice, if_neg hcore, hset]
    exact ⟨consistent_stopped rfl (hprocess hservice) (by simp), hsignals⟩
  · have hdesktop := Bool.eq_false_iff.mpr hservice
    obtain ⟨child, hsome, hpid⟩ := hchild hdesktop
    have hset := setState_stopping (c := { c with stopRequested := true }) hrun
    rw [if_neg hservice]
    split
    · rename_i hnone
      exact absurd (hsome.symm.trans hnone) (by simp)
    · rename_i child' hsome'
      obtain rfl : child = child' := Option.some.inj (hsome.symm.trans hsome')
      rw [if_neg hcore, hset]
      apply ControlInv.waitFor
      · refine ⟨?_, List.forall_mem_append.mpr ⟨hsignals, List.forall_mem_singleton.mpr hpid⟩⟩
        rw [Consistent]
        dsimp only
        rw [hdesktop, hsome, hrun]
        exact .stopping hpid
      · exact hwant

lemma ControlInv.stop (h : ControlInv c) (hcore : c.coreState ≠ .failed) (now : Circumstances) :
    ControlInv (c.stop now) := by
  have hagrees := h.agrees
  rw [Consistent] at hagrees
  rw [CoreControl.stop]
  dsimp only
  by_cases hstopped : c.coreState = .stopped
  · rw [if_pos hstopped]
    exact ⟨consistent_stopped hstopped (hagrees.process_none (.inl hstopped)) (by simp), h.signals⟩
  · rw [if_neg hstopped]
    apply controlInv_stopCore
    · exact fun hservice => hagrees.process_none (.inr hservice)
    · intro hservice
      change c.service = false at hservice
      rw [hservice] at hagrees
      exact hagrees.exists_child hstopped hcore
    · exact hstopped
    · rfl
    · rfl
    · exact h.signals

lemma Agrees.of_idle {service restarts : Bool} {core : CoreState} {process : Option Child} {run : RunState}
    (h : Agrees service core process run restarts) (hidle : run = .stopped ∨ run = .failed) :
    core = .stopped ∨ core = .failed ∧ service = false := by
  cases h with
  | stopped => exact .inl rfl
  | failed => exact .inr ⟨rfl, rfl⟩
  | starting | running | served | stopping => simp at hidle

lemma Agrees.of_failed {service restarts : Bool} {process : Option Child} {run : RunState}
    (h : Agrees service .failed process run restarts) : process = some .dead ∧ run = .failed := by
  cases h
  exact ⟨rfl, rfl⟩

lemma controlInv_startCore (hcore : c.coreState = .stopped ∨ c.coreState = .failed ∧ c.service = false)
    (hprocess : c.service = true → c.process = none) (hsignals : ∀ child ∈ c.signalled, child.hasPid = true)
    (launches : Bool) : ControlInv (c.startCore launches) := by
  have hidle : ¬(c.coreState = .starting ∨ c.coreState = .running) := by
    rcases hcore with hcore | ⟨hcore, -⟩
    · simp [hcore]
    · simp [hcore]
  rw [not_or] at hidle
  rw [startCore, if_neg (not_or.mpr hidle)]
  dsimp only
  by_cases hservice : c.service = true
  · have hset : setState { c with stopRequested := false } .running =
        { c with stopRequested := false, coreState := .running, runState := .running } := if_neg hidle.2
    rw [if_pos hservice, hset]
    refine ⟨?_, hsignals⟩
    rw [Consistent]
    dsimp only
    rw [hservice, hprocess hservice]
    exact .served
  · have hset : setState { c with stopRequested := false } .starting =
        { c with stopRequested := false, coreState := .starting, runState := .starting } := if_neg hidle.1
    have hlaunching : ControlInv { setState { c with stopRequested := false } .starting with process := some .launching } := by
      rw [hset]
      refine ⟨?_, hsignals⟩
      rw [Consistent]
      dsimp only
      rw [Bool.eq_false_iff.mpr hservice]
      exact .starting
    rw [if_neg hservice]
    split
    · exact hlaunching
    · exact hlaunching.notify rfl trivial

lemma ControlInv.start (h : ControlInv c) (now : Circumstances) : ControlInv (c.start prepare now) := by
  have hagrees := h.agrees
  rw [Consistent] at hagrees
  rw [CoreControl.start]
  split
  · exact h
  · rename_i hidle
    have hcore : c.coreState = .stopped ∨ c.coreState = .failed ∧ c.service = false := by
      apply hagrees.of_idle
      cases hrun : c.runState with
      | stopped => exact .inl rfl
      | failed => exact .inr rfl
      | starting | running | stopping => simp [hrun] at hidle
    dsimp only
    split
    · refine ⟨?_, h.signals⟩
      rcases hcore with hcore | ⟨hcore, hservice⟩
      · exact consistent_stopped hcore (hagrees.process_none (.inl hcore)) (by simp)
      · rw [Consistent]
        change Agrees c.service c.coreState c.process .failed _
        rw [hcore] at hagrees ⊢
        rw [hservice, hagrees.of_failed.1]
        exact .failed
    · apply controlInv_startCore
      · exact hcore
      · exact fun hservice => hagrees.process_none (.inr hservice)
      · exact h.signals

lemma ControlInv.wanted (h : ControlInv c) : ControlInv { c with wantRunning := true, restartTimer := true } :=
  ⟨h.agrees.wanted, h.signals⟩

lemma ControlInv.restart (h : ControlInv c) (now : Circumstances) : ControlInv (c.restart prepare now) := by
  rw [CoreControl.restart]
  split
  · exact h.start now
  · rename_i hbusy
    apply ControlInv.wanted
    apply h.stop
    intro hcore
    have hagrees := h.agrees
    rw [Consistent, hcore] at hagrees
    exact hbusy (.inr hagrees.of_failed.2)

/-- The core is not stopped after a failed start, and a core that was stopped to be started again exits in time. -/
def Timed (c : CoreControl) : ControlEvent → Prop
  | .stop _ => c.coreState ≠ .failed
  | .pauseForTrust _ => c.coreState ≠ .failed
  | .notice notice => InTime c notice
  | _ => True

lemma ControlInv.next {e : ControlEvent} (h : ControlInv c) (hok : Timed c e) (hnext : c.next prepare e = some d) :
    ControlInv d := by
  have hagrees := h.agrees
  cases e with
  | start now =>
    obtain rfl := Option.some.inj hnext
    exact h.start now
  | stop now =>
    obtain rfl := Option.some.inj hnext
    exact h.stop hok now
  | restart now =>
    obtain rfl := Option.some.inj hnext
    exact h.restart now
  | restartTimeout now =>
    obtain ⟨-, heq⟩ := Option.ite_none_right_eq_some.mp hnext
    obtain rfl := Option.some.inj heq
    rw [CoreControl.restartTimeout]
    dsimp only
    split_ifs with hwanted
    · -- the core has stopped, so that any state of the window goes with it
      apply ControlInv.start
      exact ⟨consistent_stopped hwanted.2 (Agrees.process_none hagrees (.inl hwanted.2)) (by simp), h.signals⟩
    · refine ⟨hagrees.unwanted fun hcore => ?_, h.signals⟩
      rw [restarts, Bool.and_eq_false_iff]
      exact .inr (Bool.eq_false_iff.mpr fun hwant => hwanted ⟨hwant, hcore⟩)
  | notice notice =>
    obtain ⟨hreports, heq⟩ := Option.ite_none_right_eq_some.mp hnext
    obtain rfl := Option.some.inj heq
    exact h.notify hreports hok
  | pauseForTrust now =>
    obtain rfl := Option.some.inj hnext
    exact ControlInv.stop (c := { c with pausedForTrust := true }) ⟨hagrees, h.signals⟩ hok now
  | acceptTrust now =>
    obtain rfl := Option.some.inj hnext
    split_ifs
    · exact ControlInv.start (c := { c with pausedForTrust := false }) ⟨hagrees, h.signals⟩ now
    · exact h
  | rejectTrust | connected | edit =>
    obtain rfl := Option.some.inj hnext
    exact ⟨hagrees, h.signals⟩
  | applyTimeout now =>
    obtain ⟨-, heq⟩ := Option.ite_none_right_eq_some.mp hnext
    obtain rfl := Option.some.inj heq
    have hsame : ControlInv { c with applyTimer := false } := ⟨hagrees, h.signals⟩
    rw [applyIfChanged]
    dsimp only
    split_ifs
    · exact hsame
    · exact hsame
    · exact hsame.restart now

end Steps

/-- The window does not wait for nothing, and signals only a process that runs. -/
theorem never_stuck (prepare : Name → Name) (c : CoreControl)
    (h : Reachable Initial (next prepare) Timed c) : c.NeverStuck := by
  have hinv : ControlInv c := by
    apply h.invariant
    · intro c hc
      rw [Initial] at hc
      rw [hc]
      exact ⟨.stopped (by simp [new]), List.forall_mem_nil _⟩
    · exact fun c e d hc hok hnext => hc.next hok hnext
  exact hinv.neverStuck

instance : Decidable (NeverStuck c) :=
  decidable_of_iff
    ((∀ child ∈ c.signalled, child.hasPid = true) ∧
      (c.runState = .starting ∨ c.runState = .stopping →
        c.process.any Child.hasPid = true ∨ c.restartTimer = true))
    ⟨fun h => ⟨h.1, fun hwaits => (h.2 hwaits).imp_left (Option.any_eq_true _ _).mp⟩,
      fun h => ⟨h.signals, fun hwaits => (h.waits hwaits).imp_left (Option.any_eq_true _ _).mpr⟩⟩

instance : ∀ notice, Decidable (InTime c notice)
  | .finished _ => inferInstanceAs (Decidable (_ → _ → _ → _))
  | .started | .failedToStart => .isTrue trivial

instance : ∀ (c : CoreControl) (e : ControlEvent), Decidable (Timed c e)
  | c, .stop _ | c, .pauseForTrust _ => inferInstanceAs (Decidable (c.coreState ≠ .failed))
  | c, .notice notice => inferInstanceAs (Decidable (InTime c notice))
  | _, .start _ | _, .restart _ | _, .restartTimeout _ | _, .acceptTrust _ | _, .rejectTrust | _, .connected | _, .edit _
  | _, .applyTimeout _ => .isTrue trivial

def served : CoreSettings := ⟨true, ['s'], [], some ['c']⟩

def calm : Circumstances := ⟨true, true, []⟩

theorem never_stuck_restarted : ∃ c : CoreControl, c.NeverStuck ∧ c.runState = .starting ∧ c.signalled = [.alive] := by
  obtain ⟨c, hreached, hrun, hsignalled⟩ : ∃ c, Reachable Initial (next id) Timed c ∧
      c.runState = .starting ∧ c.signalled = [.alive] :=
    Reachable.exists_of_run (s := new false false served) rfl
      [.start calm, .notice .started, .restart calm, .notice (.finished false), .restartTimeout calm] (by decide)
  exact ⟨c, never_stuck id c hreached, hrun, hsignalled⟩

/-- A stop after a failed start. -/
theorem signals_dead_child : ¬∀ (prepare : Name → Name) (c : CoreControl),
    Reachable Initial (next prepare) (fun _ _ => True) c → c.NeverStuck := by
  intro h
  obtain ⟨c, hreached, hnot⟩ : ∃ c, Reachable Initial (next id) (fun _ _ => True) c ∧ ¬c.NeverStuck :=
    Reachable.exists_of_run (s := new false false served) rfl
      [.start calm, .notice .failedToStart, .stop calm] (by decide)
  exact hnot (h id c hreached)

-- a stopped core that exits after the timer leaves the window in `stopping`
example : (runFrom (next id) [.start calm, .notice .started, .restart calm, .restartTimeout calm, .notice (.finished false)]
    (new false false served)).map (fun c => (c.runState, c.process, c.restartTimer)) = some (.stopping, none, false) := by
  decide

end CoreControl

end InputLeap.Gui
