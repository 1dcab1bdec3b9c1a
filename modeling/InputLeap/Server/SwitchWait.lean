import InputLeap.Server.CursorEvents

/-! Switching after a delay. The screen to switch to and the position on it are recorded by different
tests: the screen when the edge is new, the position when the timer is started. -/

namespace InputLeap

open InputLeap.Lib

inductive WaitOp
  | motionPrimary (p : Position)
  | motionSecondary (d : Position)
  | noSwitch (p : Position)
  | stopSwitch
  | switchWait

/-- If the timer runs, it was started for the screen that will be switched to, with a position that is in `P`
with the shape of the screen. -/
def SwitchState.Matched (shape : ClientId → DisplayRect) (P : DisplayRect → Position → Prop) (w : SwitchState) : Prop :=
  w.waitTimer = true → ∃ dst, w.screen = some dst ∧ w.waitScreen = some dst ∧ P (shape dst) w.waitPos

namespace SwitchState.Matched

variable {shape : ClientId → DisplayRect} {P : DisplayRect → Position → Prop} {w : SwitchState}

lemma stopSwitch (h : w.Matched shape P) : w.stopSwitch.waitTimer = false := by
  rw [SwitchState.stopSwitch]
  split_ifs with hscreen
  · rfl
  · by_contra htimer
    obtain ⟨dst, hdst, -⟩ := h (by simpa using htimer)
    simp [hdst] at hscreen

lemma of_waitTimer (h : w.waitTimer = false) : w.Matched shape P := fun htimer => absurd htimer (by simp [h])

end SwitchState.Matched

namespace Server

variable {env : Env} {s t : Server} {P : DisplayRect → Position → Prop}

def Matched (P : DisplayRect → Position → Prop) (s : Server) : Prop := s.switch.Matched s.getShape P

def Idle (s : Server) : Prop := s.switch.waitTimer = false ∧ 0 < s.settings.switchWaitDelay

def waitNext (s : Server) (op : Env × WaitOp) : Option Server :=
  match op.2 with
  | .motionPrimary p => s.onMouseMovePrimary op.1 p
  | .motionSecondary d => s.onMouseMoveSecondary op.1 d
  | .noSwitch p => some { s with switch := s.noSwitch op.1 p }
  | .stopSwitch => some { s with switch := s.switch.stopSwitch }
  | .switchWait => if s.switch.waitTimer then some (s.handleSwitchWait op.1) else none

def LandsOn (P : DisplayRect → Position → Prop) (env : Env) (s : Server) (dir : Direction) (p : Position) : Prop :=
  ∀ found ∈ s.mapToNeighbor env s.active dir p, ∀ next ∈ found, P (s.getShape next.1) next.2

/-- If the edge is the one that was touched last and no timer runs, beyond this point of it is the screen
that was noted then. A second tap and a locked corner do not start a wait. -/
def Resumes (env : Env) (s : Server) (dir : Direction) (p pActive : Position) : Prop :=
  dir = s.switch.dir → s.switch.waitTimer = false → s.secondTap env dir = false → s.lockedCorner pActive = false →
    ∀ last ∈ s.switch.screen, ∀ found ∈ s.mapToNeighbor env s.active dir p, ∀ next ∈ found, next.1 = last

def AimsWithin (P : DisplayRect → Position → Prop) (s : Server) : Env × WaitOp → Prop
  | (env, .motionPrimary p) =>
    s.active = primaryClient → ∀ touch ∈ s.primaryTouches env p, s.LandsOn P env touch.1 touch.2
  | (env, .motionSecondary d) =>
    ¬ (s.active = primaryClient ∨ s.settings.relativeMoves ∧ s.lockedToScreen) →
      ∀ dir ∈ leavesBy (s.getShape s.active) (s.secondaryPoint d), s.LandsOn P env dir (s.secondaryPoint d)
  | _ => True

def KeepsAim (s : Server) : Env × WaitOp → Prop
  | (env, .motionPrimary p) =>
    s.active = primaryClient → ∀ touch ∈ (s.primaryTouches env p).head?, s.Resumes env touch.1 touch.2
      (clampToShape (s.getShape s.active) (getJumpZoneSize env s.active) (s.edgePoint env p))
  | (env, .motionSecondary d) =>
    ¬ (s.active = primaryClient ∨ s.settings.relativeMoves ∧ s.lockedToScreen) →
      ∀ dir ∈ leavesBy (s.getShape s.active) (s.secondaryPoint d), s.Resumes env dir (s.secondaryPoint d)
        (clampToShape (s.getShape s.active) 0 (s.secondaryPoint d))
  | _ => True

section Tests

lemma secondTap_dir {dir : Direction} (h : s.secondTap env dir = true) : dir = s.switch.dir := by
  simp only [secondTap, Bool.and_eq_true, decide_eq_true_eq] at h
  exact h.1.1.2

lemma prepareSwitch_dir (screen : ClientId) (dir : Direction) (p : Position) :
    (s.prepareSwitch env screen dir p).1.dir = dir := by
  have hdir : (s.prepareSwitch env screen dir p).1.dir = (s.switch.aimAt dir screen).dir := by
    simp only [prepareSwitch]
    split_ifs <;> rfl
  rw [hdir, SwitchState.aimAt]
  split_ifs with h
  · rfl
  · exact (not_not.mp fun hne => h (.inl hne)).symm

lemma prepareSwitch_wait (env : Env) (screen : ClientId) (dir : Direction) (p : Position)
    (hdelay : 0 < s.settings.switchWaitDelay) :
    let w := (s.prepareSwitch env screen dir p).1
    (s.secondTap env dir = false ∧ (dir ≠ s.switch.dir ∨ s.switch.waitTimer = false) ∧
      w.waitScreen = some screen ∧ w.waitPos = p) ∨
    ((s.secondTap env dir = true ∨ dir = s.switch.dir ∧ s.switch.waitTimer = true) ∧
      w.waitTimer = s.switch.waitTimer ∧ w.waitScreen = s.switch.waitScreen ∧ w.waitPos = s.switch.waitPos) := by
  -- the two-tap test leaves alone what the wait has recorded
  have htested (b : Bool) : let w := if b then (s.switch.aimAt dir screen).startSwitchTwoTap else s.switch.aimAt dir screen
      w.waitTimer = s.switch.waitTimer ∧ w.waitScreen = s.switch.waitScreen ∧ w.waitPos = s.switch.waitPos := by
    rw [SwitchState.aimAt]
    split_ifs <;> exact ⟨rfl, rfl, rfl⟩
  obtain ⟨htimer, hscreen, hpos⟩ := htested (decide (0 < s.settings.switchTwoTapDelay) && !s.secondTap env dir)
  simp only [prepareSwitch]
  rw [htimer]
  generalize (if (decide (0 < s.settings.switchTwoTapDelay) && !s.secondTap env dir) = true then
    (s.switch.aimAt dir screen).startSwitchTwoTap else s.switch.aimAt dir screen) = w at htimer hscreen hpos ⊢
  split_ifs with hstart
  · left
    simp only [Bool.and_eq_true, Bool.or_eq_true, Bool.not_eq_true', decide_eq_true_eq] at hstart
    exact ⟨hstart.1.1, hstart.2, rfl, rfl⟩
  · right
    refine ⟨?_, htimer, hscreen, hpos⟩
    by_cases htap : s.secondTap env dir = true
    · exact .inl htap
    · simpa [htap, hdelay] using hstart

lemma prepareSwitch_matched {screen : ClientId} {dir : Direction} {p : Position} (h : s.Matched P)
    (hdelay : 0 < s.settings.switchWaitDelay) (hlands : P (s.getShape screen) p)
    (hresumes : dir = s.switch.dir → s.switch.waitTimer = false → s.secondTap env dir = false →
      ∀ last, s.switch.screen = some last → screen = last) :
    (s.prepareSwitch env screen dir p).1.Matched s.getShape P := by
  have hscreen := prepareSwitch_screen env s screen dir p
  intro htimer
  rcases prepareSwitch_wait env screen dir p hdelay with ⟨htap, hstart, hwait, hpos⟩ | ⟨hkeep, hold, hwait, hpos⟩
  · refine ⟨screen, ?_, hwait, by rwa [hpos]⟩
    rw [hscreen, SwitchState.aimAt]
    split_ifs with hnew
    · rfl
    · rw [not_or, not_not] at hnew
      obtain ⟨last, hlast⟩ := Option.ne_none_iff_exists'.mp hnew.2
      rw [hlast, hresumes hnew.1 (hstart.resolve_left fun hne => hne hnew.1) htap last hlast]
  · rw [hold] at htimer
    obtain ⟨dst, hdst, hdst', hcontains⟩ := h htimer
    refine ⟨dst, ?_, hwait.trans hdst', by rwa [hpos]⟩
    have hdir : dir = s.switch.dir := hkeep.elim secondTap_dir And.left
    rw [hscreen, SwitchState.aimAt, if_neg (by simp [hdir, hdst]), hdst]

lemma isSwitchOkay_dir (screen : ClientId) (dir : Direction) (p pActive : Position) :
    (s.isSwitchOkay env (some screen) dir p pActive).1.screen = none ∨
      (s.isSwitchOkay env (some screen) dir p pActive).1.dir = dir := by
  rcases isSwitchOkay_state env s screen dir p pActive with hw | ⟨-, hw⟩
  · exact .inl (by rw [hw, SwitchState.stopSwitch_screen])
  · exact .inr (by rw [hw, prepareSwitch_dir])

lemma aimAt_screen_isSome (w : SwitchState) (dir : Direction) (screen : ClientId) :
    (w.aimAt dir screen).screen.isSome = true := by
  rw [SwitchState.aimAt]
  split_ifs with h
  · rfl
  · exact Option.isSome_iff_ne_none.mpr fun hnone => h (.inr hnone)

lemma isSwitchOkay_matched {newScreen : Option ClientId} {dir : Direction} {p pActive : Position} (h : s.Matched P)
    (hdelay : 0 < s.settings.switchWaitDelay) (hlands : ∀ screen ∈ newScreen, P (s.getShape screen) p)
    (hresumes : dir = s.switch.dir → s.switch.waitTimer = false → s.secondTap env dir = false →
      s.lockedCorner pActive = false → ∀ last ∈ s.switch.screen, ∀ screen ∈ newScreen, screen = last) :
    (s.isSwitchOkay env newScreen dir p pActive).1.Matched s.getShape P := by
  cases newScreen with
  | none => exact .of_waitTimer h.stopSwitch
  | some screen =>
    rcases isSwitchOkay_state env s screen dir p pActive with hw | ⟨hcorner, hw⟩
    · rw [hw]
      have hsome : (s.prepareSwitch env screen dir p).1.screen.isSome = true := by
        rw [prepareSwitch_screen]
        exact aimAt_screen_isSome _ _ _
      refine .of_waitTimer ?_
      rw [SwitchState.stopSwitch, if_pos hsome]
      rfl
    · rw [hw]
      apply prepareSwitch_matched h hdelay (hlands screen rfl)
      intro hdir htimer htap last hlast
      exact hresumes hdir htimer htap (by simpa using hcorner) last hlast screen rfl

end Tests

section Motion

variable {pointer : Pointer} {w : SwitchState} {dir : Direction} {p pActive : Position}

lemma switchScreen_matched (h : s.Matched P) (dst : ClientId) (q : Position) : (s.switchScreen env dst q).Matched P := by
  apply SwitchState.Matched.of_waitTimer
  rw [(Switched.switchScreen env s dst q).switch]
  exact h.stopSwitch

lemma noSwitch_matched (h : t.switch = s.noSwitch env p) : t.Matched P := by
  obtain ⟨engaged, armed, heq⟩ := noSwitch_eq env s p
  exact SwitchState.Matched.of_waitTimer (by rw [h, heq])

lemma switchOrDrag_matched (h : s.Matched P) (dst : ClientId) (q : Position) : (s.switchOrDrag env dst q).Matched P := by
  rw [switchOrDrag]
  split_ifs
  · exact h
  · exact switchScreen_matched h dst q

lemma landsOn_motion : { s with pointer := pointer, switch := w }.LandsOn P env dir p ↔ s.LandsOn P env dir p := by
  simp only [LandsOn, mapToNeighbor_motion]
  rfl

lemma resumes_motion : { s with pointer := pointer }.Resumes env dir p pActive ↔ s.Resumes env dir p pActive := by
  simp only [Resumes, mapToNeighbor_motion (w := s.switch)]
  rfl

lemma resumes_of_new (h : w.screen = none ∨ w.dir ≠ dir) : { s with switch := w }.Resumes env dir p pActive := by
  intro hdir _ _ _ last hlast
  rcases h with h | h
  · simp [h] at hlast
  · exact absurd hdir.symm h

lemma tryTouches_matched {pc : Position} {ts : List (Direction × Position)} (h : s.Matched P)
    (hdelay : 0 < s.settings.switchWaitDelay) (hlands : ∀ touch ∈ ts, s.LandsOn P env touch.1 touch.2)
    (hresumes : ∀ touch ∈ ts.head?, s.Resumes env touch.1 touch.2 pc)
    (hdistinct : ts.Pairwise fun a b => a.1 ≠ b.1) (hrun : s.tryTouches env pc ts = some t) : t.Matched P := by
  induction ts generalizing s with
  | nil => exact Option.some.inj hrun ▸ h
  | cons touch ts ih =>
    obtain ⟨dir, p⟩ := touch
    obtain ⟨hne, hdistinct⟩ := List.pairwise_cons.mp hdistinct
    have hrest (w : SwitchState) (hw : w.Matched s.getShape P) (hdir : w.screen = none ∨ w.dir = dir)
        (hrun : { s with switch := w }.tryTouches env pc ts = some t) : t.Matched P := by
      refine ih (s := { s with switch := w }) hw hdelay (fun touch htouch => ?_) (fun touch htouch => ?_) hdistinct hrun
      · exact landsOn_motion.mpr (hlands touch (List.mem_cons_of_mem _ htouch))
      · refine resumes_of_new (hdir.imp id fun hdir => ?_)
        rw [hdir]
        exact hne touch (List.mem_of_head? htouch)
    rw [tryTouches] at hrun
    split at hrun
    · cases hrun
    · refine hrest _ (isSwitchOkay_matched h hdelay (by simp) (by simp)) (.inl ?_) hrun
      exact SwitchState.stopSwitch_screen _
    · next newScreen q hmap =>
      have hmatched : (s.isSwitchOkay env (some newScreen) dir q pc).1.Matched s.getShape P := by
        refine isSwitchOkay_matched h hdelay ?_ fun hdir htimer htap hcorner last hlast screen hscreen => ?_
        · rintro _ ⟨⟩
          exact hlands (dir, p) List.mem_cons_self _ hmap _ rfl
        · obtain rfl := Option.some.inj hscreen
          exact hresumes (dir, p) rfl hdir htimer htap hcorner last hlast _ hmap _ rfl
      dsimp only at hrun
      split_ifs at hrun
      · exact Option.some.inj hrun ▸ switchOrDrag_matched (s := { s with switch := _ }) hmatched newScreen q
      · exact hrest _ hmatched (isSwitchOkay_dir newScreen dir q pc) hrun

lemma touches_distinct (a : DisplayRect) (zone : ℤ) (p : Position) :
    (touches a zone p).Pairwise fun d e => d.1 ≠ e.1 := by
  simp only [touches]
  split_ifs <;> simp

lemma onMouseMovePrimary_matched (h : s.Matched P) (hdelay : 0 < s.settings.switchWaitDelay)
    (hwithin : s.AimsWithin P (env, .motionPrimary p))
    (haim : s.KeepsAim (env, .motionPrimary p)) (hrun : s.onMouseMovePrimary env p = some t) : t.Matched P := by
  rw [onMouseMovePrimary] at hrun
  split_ifs at hrun with hactive
  · exact Option.some.inj hrun ▸ h
  · have hlands := hwithin (not_not.mp hactive)
    have hresumes := haim (not_not.mp hactive)
    dsimp only at hrun
    split at hrun
    · exact Option.some.inj hrun ▸ noSwitch_matched rfl
    · refine tryTouches_matched ?_ ?_ ?_ ?_ (touches_distinct _ _ _) hrun
      · exact h
      · exact hdelay
      · intro touch htouch
        exact landsOn_motion.mpr (hlands touch htouch)
      · intro touch htouch
        exact resumes_motion.mpr (hresumes touch htouch)

lemma onMouseMoveSecondary_matched {d : Position} (h : s.Matched P) (hdelay : 0 < s.settings.switchWaitDelay)
    (hwithin : s.AimsWithin P (env, .motionSecondary d))
    (haim : s.KeepsAim (env, .motionSecondary d)) (hrun : s.onMouseMoveSecondary env d = some t) : t.Matched P := by
  rw [onMouseMoveSecondary] at hrun
  split_ifs at hrun with hactive
  · exact Option.some.inj hrun ▸ h
  · dsimp only at hrun
    split at hrun
    · rw [← Option.some.inj hrun]
      split_ifs
      · exact noSwitch_matched rfl
      · exact h
    · next dir hdir =>
      have hlands := hwithin hactive dir hdir
      have hresumes := haim hactive dir hdir
      split at hrun
      · cases hrun
      · rw [← Option.some.inj hrun]
        exact isSwitchOkay_matched (s := { s with pointer := _ }) h hdelay (by simp) (by simp)
      · next newScreen q hmap =>
        rw [mapToNeighbor_motion (w := s.switch)] at hmap
        have hmatched (pointer : Pointer) : ({ s with pointer := pointer }.isSwitchOkay env (some newScreen) dir q
            (clampToShape (s.getShape s.active) 0 (s.secondaryPoint d))).1.Matched s.getShape P := by
          apply isSwitchOkay_matched (s := { s with pointer := pointer }) h hdelay
          · rintro _ ⟨⟩
            exact hlands _ hmap _ rfl
          · rintro hdir htimer htap hcorner last hlast _ ⟨⟩
            exact hresumes hdir htimer htap hcorner last hlast _ hmap _ rfl
        split_ifs at hrun
        · exact Option.some.inj hrun ▸ switchScreen_matched (s := { s with pointer := _, switch := _ }) (hmatched _) _ _
        · exact Option.some.inj hrun ▸ hmatched _

end Motion

lemma waitNext_matched {op : Env × WaitOp} (h : s.Matched P) (hdelay : 0 < s.settings.switchWaitDelay)
    (hwithin : s.AimsWithin P op) (haim : s.KeepsAim op) (hnext : s.waitNext op = some t) :
    t.Matched P ∧ 0 < t.settings.switchWaitDelay := by
  obtain ⟨env, op⟩ := op
  cases op with
  | motionPrimary p =>
    exact ⟨onMouseMovePrimary_matched h hdelay hwithin haim hnext, (onMouseMovePrimary_moves hnext).cursor.settings ▸ hdelay⟩
  | motionSecondary d =>
    exact ⟨onMouseMoveSecondary_matched h hdelay hwithin haim hnext, (onMouseMoveSecondary_moves hnext).cursor.settings ▸ hdelay⟩
  | noSwitch p => exact Option.some.inj hnext ▸ ⟨noSwitch_matched rfl, hdelay⟩
  | stopSwitch => exact Option.some.inj hnext ▸ ⟨.of_waitTimer h.stopSwitch, hdelay⟩
  | switchWait =>
    simp only [waitNext] at hnext
    split_ifs at hnext
    rw [← Option.some.inj hnext]
    refine ⟨?_, by rwa [handleSwitchWait_moves.cursor.settings]⟩
    rw [handleSwitchWait]
    split_ifs
    · exact .of_waitTimer h.stopSwitch
    · split
      · exact h
      · exact switchScreen_matched h _ _

lemma matched_of_reachable (h : Reachable Idle waitNext (fun s op => s.KeepsAim op ∧ s.AimsWithin P op) s) :
    s.Matched P := by
  have hinv : s.Matched P ∧ 0 < s.settings.switchWaitDelay := by
    apply h.invariant (I := fun s => s.Matched P ∧ 0 < s.settings.switchWaitDelay)
    · intro s hs
      exact ⟨.of_waitTimer hs.1, hs.2⟩
    · intro s op t hs haim hnext
      exact waitNext_matched hs.1 hs.2 haim.2 haim.1 hnext
  exact hinv.1

def OnScreen (shape : DisplayRect) (p : Position) : Prop := shape.contains p = true

lemma aimsWithin_true (s : Server) (op : Env × WaitOp) : s.AimsWithin (fun _ _ => True) op := by
  obtain ⟨env, op⟩ := op
  cases op with
  | motionPrimary p => exact fun _ _ _ _ _ _ _ => trivial
  | motionSecondary d => exact fun _ _ _ _ _ _ _ => trivial
  | _ => trivial

/-- When the timer expires, the switch is to the screen for which the recorded position was computed, and
the position is on it if all edges touched in the run lead to positions on screens. -/
theorem wait_matched (h : Reachable Idle waitNext KeepsAim s) (htimer : s.switch.waitTimer = true) :
    ∃ dst, s.switch.screen = some dst ∧ s.switch.waitScreen = some dst ∧
      (Reachable Idle waitNext (fun s op => s.KeepsAim op ∧ s.AimsWithin OnScreen op) s →
        (s.getShape dst).contains s.switch.waitPos = true) := by
  have hmatched : s.Matched fun _ _ => True :=
    matched_of_reachable (h.mono (fun _ => id) fun s op haim => ⟨haim, s.aimsWithin_true op⟩)
  obtain ⟨dst, hscreen, hwait, -⟩ := hmatched htimer
  refine ⟨dst, hscreen, hwait, fun hwithin => ?_⟩
  obtain ⟨dst', hscreen', -, hon⟩ := matched_of_reachable hwithin htimer
  rw [hscreen] at hscreen'
  exact Option.some.inj hscreen' ▸ hon

instance (s : Server) : Decidable s.Idle := inferInstanceAs (Decidable (_ ∧ _))

instance (env : Env) (s : Server) (dir : Direction) (p : Position) : Decidable (s.LandsOn OnScreen env dir p) :=
  inferInstanceAs (Decidable (∀ found ∈ s.mapToNeighbor env s.active dir p, ∀ next ∈ found,
    (s.getShape next.1).contains next.2 = true))

instance (env : Env) (s : Server) (dir : Direction) (p pActive : Position) : Decidable (s.Resumes env dir p pActive) :=
  inferInstanceAs (Decidable (_ → _ → _ → _ → ∀ last ∈ s.switch.screen,
    ∀ found ∈ s.mapToNeighbor env s.active dir p, ∀ next ∈ found, next.1 = last))

instance (s : Server) : (op : Env × WaitOp) → Decidable (s.AimsWithin OnScreen op)
  | (env, .motionPrimary p) =>
    inferInstanceAs (Decidable (_ → ∀ touch ∈ s.primaryTouches env p, s.LandsOn OnScreen env touch.1 touch.2))
  | (env, .motionSecondary d) => inferInstanceAs (Decidable (¬ (_ ∨ _ ∧ _) →
      ∀ dir ∈ leavesBy (s.getShape s.active) (s.secondaryPoint d), s.LandsOn OnScreen env dir (s.secondaryPoint d)))
  | (_, .noSwitch _) | (_, .stopSwitch) | (_, .switchWait) => .isTrue trivial

instance (s : Server) : (op : Env × WaitOp) → Decidable (s.KeepsAim op)
  | (env, .motionPrimary p) =>
    inferInstanceAs (Decidable (_ → ∀ touch ∈ (s.primaryTouches env p).head?, s.Resumes env touch.1 touch.2
      (clampToShape (s.getShape s.active) (getJumpZoneSize env s.active) (s.edgePoint env p))))
  | (env, .motionSecondary d) => inferInstanceAs (Decidable (¬ (_ ∨ _ ∧ _) →
      ∀ dir ∈ leavesBy (s.getShape s.active) (s.secondaryPoint d), s.Resumes env dir (s.secondaryPoint d)
        (clampToShape (s.getShape s.active) 0 (s.secondaryPoint d))))
  | (_, .noSwitch _) | (_, .stopSwitch) | (_, .switchWait) => .isTrue trivial

def forkConfig : Config :=
  let c := Config.ofScreens [['p'], ['a'], ['b']]
  let c := (c.connect ['p'] .right 0 (1 / 2) ['a'] 0 1).getD c
  let c := (c.connect ['p'] .right (1 / 2) 1 ['b'] 0 1).getD c
  (c.addOption [] kOptionScreenSwitchDelay 250).getD c

def forkServer : Server :=
  (runFrom next [(.plain, .adopt 1 ['a'] ⟨0, 0, 1024, 768⟩ (0, 0)), (.plain, .adopt 2 ['b'] ⟨0, 0, 1920, 1080⟩ (0, 0))]
    (plain forkConfig)).getD (plain forkConfig)

lemma forkServer_idle : forkServer.Idle := by
  decide +kernel

theorem wait_matched_again : ∃ s, Reachable Idle waitNext (fun s op => s.KeepsAim op ∧ s.AimsWithin OnScreen op) s ∧
    s.switch.waitTimer = true ∧ ∃ dst, s.switch.screen = some dst ∧ s.switch.waitScreen = some dst ∧
      (s.getShape dst).contains s.switch.waitPos = true := by
  obtain ⟨s, hreach, htimer⟩ : ∃ s,
      Reachable Idle waitNext (fun s op => s.KeepsAim op ∧ s.AimsWithin OnScreen op) s ∧ s.switch.waitTimer = true :=
    Reachable.exists_of_run forkServer_idle [(.plain, .motionPrimary (1919, 100)), (.plain, .motionPrimary (960, 540)),
      (.plain, .motionPrimary (1919, 200))] (by decide +kernel)
  obtain ⟨dst, hscreen, hwait, hon⟩ := wait_matched (hreach.mono (fun _ => id) fun _ _ => And.left) htimer
  exact ⟨s, hreach, htimer, dst, hscreen, hwait, hon hreach⟩

/-- The cursor touches the edge, leaves it, and touches it again where it leads to another screen. -/
theorem wait_not_matched : ∃ s, Reachable Idle waitNext (fun _ _ => True) s ∧ s.switch.waitTimer = true ∧
    s.switch.screen = some 1 ∧ s.switch.waitScreen = some 2 ∧ (s.getShape 1).contains s.switch.waitPos = false :=
  Reachable.exists_of_run forkServer_idle [(.plain, .motionPrimary (1919, 100)), (.plain, .motionPrimary (960, 540)),
    (.plain, .motionPrimary (1919, 1000))] (by decide +kernel)

end Server

end InputLeap
