import InputLeap.Server.Effects

/-! Events that only move the cursor, one by one. -/

namespace InputLeap

open InputLeap.Lib

namespace Server

variable {env : Env} {s t : Server}

section Neighbors

lemma searchNeighbor_listed {r : Registry} {rnd : ℚ → ℚ} {dir : Direction} {fuel : ℕ} {srcName : Name} {t f : ℚ}
    {c : ClientId} (h : r.searchNeighbor rnd dir fuel srcName t = some (some (c, f))) :
    ∃ n, (n, c) ∈ r.clients.entries := by
  induction fuel generalizing srcName t with
  | zero => simp [Registry.searchNeighbor] at h
  | succ fuel ih =>
    rw [Registry.searchNeighbor] at h
    generalize r.config.getNeighbor rnd srcName dir t = next at h
    obtain ⟨dstName, tTmp⟩ := next
    by_cases hdst : dstName = []
    · simp [hdst] at h
    · cases hfind : r.clients.find? dstName with
      | none =>
        simp only [hdst, hfind, if_false] at h
        exact ih h
      | some d =>
        simp only [hdst, hfind, if_false, Option.some.injEq, Prod.mk.injEq] at h
        obtain ⟨n, -, hn⟩ := OrdMap.find?_eq_some.mp hfind
        exact ⟨n, h.1 ▸ hn⟩

lemma getNeighbor_listed {src dst : ClientId} {dir : Direction} {p q : Position}
    (h : s.getNeighbor env src dir p = some (some (dst, q))) : s.Listed dst := by
  rw [getNeighbor, Option.map_eq_some_iff] at h
  obtain ⟨found, hfound, h⟩ := h
  obtain ⟨⟨c, f⟩, rfl, hpixel⟩ := Option.map_eq_some_iff.mp h
  obtain ⟨rfl, -⟩ := Prod.mk.inj hpixel
  exact searchNeighbor_listed hfound

lemma skipScreens_listed {side : Direction} {fuel : ℕ} {prev : DisplayRect} {dst c : ClientId} {p q : Position}
    (h : s.skipScreens env side fuel prev dst p = some (c, q)) (hdst : s.Listed dst) : s.Listed c := by
  induction fuel generalizing prev dst p with
  | zero => simp [skipScreens] at h
  | succ fuel ih =>
    rw [skipScreens] at h
    split at h
    · obtain ⟨rfl, -⟩ := Prod.mk.inj (Option.some.inj h)
      exact hdst
    · split at h
      · cases h
      · obtain ⟨rfl, -⟩ := Prod.mk.inj (Option.some.inj h)
        exact hdst
      · next hnext => exact ih h (getNeighbor_listed hnext)

lemma mapToNeighbor_listed {src dst : ClientId} {side : Direction} {p q : Position}
    (h : s.mapToNeighbor env src side p = some (some (dst, q))) : s.Listed dst := by
  rw [mapToNeighbor] at h
  split at h
  · cases h
  · cases h
  · next hfirst =>
    obtain ⟨⟨c, r⟩, hskip, h⟩ := Option.map_eq_some_iff.mp h
    obtain ⟨rfl, -⟩ := Prod.mk.inj (Option.some.inj h)
    exact skipScreens_listed hskip (getNeighbor_listed hfirst)

end Neighbors

section Motion

lemma prepareSwitch_screen (env : Env) (s : Server) (screen : ClientId) (dir : Direction) (p : Position) :
    (s.prepareSwitch env screen dir p).1.screen = (s.switch.aimAt dir screen).screen := by
  simp only [prepareSwitch]
  split_ifs <;> rfl

lemma isSwitchOkay_state (env : Env) (s : Server) (screen : ClientId) (dir : Direction) (p pActive : Position) :
    (s.isSwitchOkay env (some screen) dir p pActive).1 = (s.prepareSwitch env screen dir p).1.stopSwitch ∨
      ¬ s.lockedCorner pActive ∧
        (s.isSwitchOkay env (some screen) dir p pActive).1 = (s.prepareSwitch env screen dir p).1 := by
  simp only [isSwitchOkay]
  split_ifs with hcorner
  · exact .inl rfl
  · exact .inr ⟨hcorner, rfl⟩
  · exact .inl rfl
  · exact .inr ⟨hcorner, rfl⟩

lemma isSwitchOkay_screen {newScreen : Option ClientId} {dir : Direction} {p pActive : Position} {c : ClientId}
    (h : (s.isSwitchOkay env newScreen dir p pActive).1.screen = some c) :
    s.switch.screen = some c ∨ newScreen = some c := by
  cases newScreen with
  | none => simp [isSwitchOkay] at h
  | some screen =>
    rcases isSwitchOkay_state env s screen dir p pActive with hw | ⟨-, hw⟩
    · rw [hw, SwitchState.stopSwitch_screen] at h
      cases h
    · rw [hw, prepareSwitch_screen, SwitchState.aimAt] at h
      split_ifs at h
      · exact .inr h
      · exact .inl h

lemma noSwitch_eq (env : Env) (s : Server) (p : Position) : ∃ engaged armed, s.noSwitch env p =
    { s.switch with waitTimer := false, twoTapEngaged := engaged, twoTapArmed := armed } := by
  simp only [noSwitch, armSwitchTwoTap]
  split_ifs
  all_goals exact ⟨_, _, rfl⟩

lemma noSwitch_screen (p : Position) : (s.noSwitch env p).screen = s.switch.screen := by
  obtain ⟨engaged, armed, h⟩ := noSwitch_eq env s p
  rw [h]

lemma still_isSwitchOkay {newScreen : Option ClientId} {dir : Direction} {p pActive : Position}
    (h : ∀ c, newScreen = some c → s.Listed c) :
    Still s { s with switch := (s.isSwitchOkay env newScreen dir p pActive).1 } :=
  .motion fun c hc => (isSwitchOkay_screen hc).imp id (h c)

lemma switchOrDrag_moves {c : ClientId} {p : Position} (h : s.Target c) :
    Moves env s (s.switchOrDrag env c p) := by
  rw [switchOrDrag]
  split_ifs
  · exact .stays .drag
  · exact .switches (.refl s) h .drag

lemma tryTouches_moves {pc : Position} {ts : List (Direction × Position)}
    (h : s.tryTouches env pc ts = some t) : Moves env s t := by
  induction ts generalizing s with
  | nil => exact .stays (Option.some.inj h ▸ .refl s)
  | cons touch ts ih =>
    obtain ⟨dir, p⟩ := touch
    rw [tryTouches] at h
    split at h
    · cases h
    · exact .after_still (still_isSwitchOkay (by simp)) (ih h)
    · next newScreen q hmap =>
      have hlisted := mapToNeighbor_listed hmap
      have hstill : Still s { s with switch := (s.isSwitchOkay env (some newScreen) dir q pc).1 } :=
        still_isSwitchOkay fun c hc => Option.some.inj hc ▸ hlisted
      dsimp only at h
      split_ifs at h
      · rw [← Option.some.inj h]
        exact .after_still hstill (switchOrDrag_moves (.inl hlisted))
      · exact .after_still hstill (ih h)

lemma onMouseMovePrimary_moves {p : Position} (h : s.onMouseMovePrimary env p = some t) : Moves env s t := by
  rw [onMouseMovePrimary] at h
  split_ifs at h
  · exact .stays (Option.some.inj h ▸ .refl s)
  · dsimp only at h
    split at h
    · rw [← Option.some.inj h]
      exact .stays (.trans .pointer (.motion fun c hc => .inl (by rwa [noSwitch_screen] at hc)))
    · exact .after_still .pointer (tryTouches_moves h)

lemma moveWithin_still (old d : Position) : Still s (s.moveWithin old d) := .pointer

lemma onMouseMoveSecondary_moves {d : Position} (h : s.onMouseMoveSecondary env d = some t) : Moves env s t := by
  rw [onMouseMoveSecondary] at h
  split_ifs at h
  · exact .stays (Option.some.inj h ▸ .refl s)
  · dsimp only at h
    refine .after_still (t := { s with pointer := ⟨s.secondaryPoint d, d, s.pointer.delta⟩ }) .pointer ?_
    split at h
    · rw [← Option.some.inj h]
      refine .stays (.trans ?_ (moveWithin_still _ _))
      split_ifs
      · exact .motion fun c hc => .inl (by rwa [noSwitch_screen] at hc)
      · exact .refl _
    · split at h
      · cases h
      · rw [← Option.some.inj h]
        exact .stays (.trans (still_isSwitchOkay (by simp)) (moveWithin_still _ _))
      · next newScreen q hmap =>
        have hlisted := mapToNeighbor_listed hmap
        split_ifs at h
        · rw [← Option.some.inj h]
          exact .switches (still_isSwitchOkay fun c hc => Option.some.inj hc ▸ hlisted) (.inl hlisted) (.refl _)
        · rw [← Option.some.inj h]
          exact .stays (.trans (still_isSwitchOkay fun c hc => Option.some.inj hc ▸ hlisted) (moveWithin_still _ _))

end Motion

section Hotkeys

lemma onScreensaver_moves (activated : Bool) : Moves env s (s.onScreensaver env activated) := by
  have hsaver : Still s { s with activeSaver := some s.active, saverPos := s.pointer.pos } :=
    .screensaver fun c hc => .inr (Option.some.inj hc).symm
  have hreset (t : Server) : Still t { t with activeSaver := none } :=
    .screensaver (by simp)
  cases activated with
  | true =>
    rw [onScreensaver, if_pos rfl]
    dsimp only
    split_ifs
    · exact .switches hsaver (.inr (.inl rfl)) (.refl _)
    · exact .stays hsaver
  | false =>
    rw [onScreensaver, if_neg (by simp)]
    split
    · exact .stays (.refl s)
    · next screen hscreen =>
      split_ifs
      · exact .switches (t := { s with saverPos := s.saverReturn env screen })
          (.screensaver fun _ => .inl)
          (.inr (.inr (.inr (.inl hscreen)))) (hreset _)
      · exact .stays (hreset s)

lemma handleSwitchWait_moves : Moves env s (s.handleSwitchWait env) := by
  rw [handleSwitchWait]
  split_ifs
  · exact .stays (.motion fun c hc => absurd hc (by simp))
  · split
    · exact .stays (.refl s)
    · next screen hscreen => exact .switches (.refl s) (.inr (.inr (.inr (.inr hscreen)))) (.refl _)

lemma handleSwitchToScreen_moves (name : Name) : Moves env s (s.handleSwitchToScreen env name) := by
  rw [handleSwitchToScreen]
  split
  · exact .stays (.refl s)
  · next c hfind =>
    obtain ⟨n, -, hn⟩ := OrdMap.find?_eq_some.mp hfind
    exact .jumpToScreen (.inl ⟨n, hn⟩)

lemma handleToggleScreen_moves : Moves env s (s.handleToggleScreen env) := by
  rw [handleToggleScreen]
  split
  · exact .stays (.refl s)
  · split
    · exact .stays (.refl s)
    · next n c hnext =>
      refine .jumpToScreen (.inl ⟨n, ?_⟩)
      rcases Option.or_eq_some_iff.mp hnext with h | ⟨-, h⟩
      · exact OrdMap.mem_of_firstGt? h
      · exact List.mem_of_head? h

lemma handleSwitchInDirection_moves {dir : Direction} (h : s.handleSwitchInDirection env dir = some t) :
    Moves env s t := by
  obtain ⟨found, hfound, rfl⟩ := Option.map_eq_some_iff.mp h
  cases found with
  | none => exact .stays (.refl s)
  | some next => exact .jumpToScreen (.inl (getNeighbor_listed hfound))

lemma handleLockCursorToScreen_quiet (state : LockState) : Quiet s (s.handleLockCursorToScreen state) := by
  have hlock (locked : Bool) : Quiet s { s with lockedToScreen := locked } :=
    ⟨rfl, rfl, rfl, rfl, rfl, fun _ => .inl, fun _ => .inl, fun _ => .refl _⟩
  simp only [handleLockCursorToScreen]
  split_ifs
  · exact .refl s
  · exact (hlock _).trans (.lockStateChanged _)
  · exact ((hlock _).trans (.lockStateChanged _)).trans .stopRelativeMoves

lemma handleInfo_still (c : ClientId) (shape : DisplayRect) (cursor : Position) :
    Still s (s.handleInfo c shape cursor) := by
  refine .modifyProxy fun p => ?_
  split_ifs
  · exact ⟨⟨rfl, rfl, rfl, rfl⟩, rfl, rfl⟩
  · exact p.recvInfo_same shape cursor

lemma takeCursor_still (c : ClientId) : Still s (s.takeCursor c) := by
  have hjump : Still s (s.modifyProxy c fun proxy => { proxy with jump := (s.proxies c).cursor }) :=
    .modifyProxy fun _ => ⟨⟨rfl, rfl, rfl, rfl⟩, rfl, rfl⟩
  simp only [takeCursor]
  split_ifs
  · exact hjump.trans .pointer
  · exact hjump

lemma handleShapeChanged_moves {c : ClientId} (h : s.handleShapeChanged env c = some t) : Moves env s t := by
  simp only [handleShapeChanged] at h
  split_ifs at h
  · exact .stays (Option.some.inj h ▸ takeCursor_still c)
  · exact .after_still (takeCursor_still c) (onMouseMovePrimary_moves h)
  · exact .after_still (takeCursor_still c) (onMouseMoveSecondary_moves h)
  · exact .stays (Option.some.inj h ▸ .refl s)

end Hotkeys

end Server

def Event.movesCursor : Event → Bool
  | adopt _ _ _ _ | disconnected _ | closeTimeout _ | recvClipboard _ _ _ | clipboardGrabbed _ _ _
  | clipboardChanged _ _ _ | reload _ => false
  | _ => true

namespace Server

variable {env : Env} {s t : Server}

/-- The cursor moves, or it is locked to the screen or released. -/
theorem handle_moves {e : Event} (he : e.movesCursor) (h : s.handle env e = some t) :
    Moves env s t ∨ ∃ state, e = .lockCursorToScreen state := by
  cases e with
  | adopt c name shape cursor => cases he
  | disconnected c => cases he
  | closeTimeout c => cases he
  | info c shape cursor => exact .inl (.stays (Option.some.inj h ▸ handleInfo_still c shape cursor))
  | shapeChanged c => exact .inl (handleShapeChanged_moves h)
  | motionPrimary p => exact .inl (onMouseMovePrimary_moves h)
  | motionSecondary d => exact .inl (onMouseMoveSecondary_moves h)
  | buttonDown => exact .inl (.stays (Option.some.inj h ▸ .drag))
  | dragInfoSent => exact .inl (.stays (Option.some.inj h ▸ .drag))
  | screensaver activated => exact .inl (Option.some.inj h ▸ onScreensaver_moves activated)
  | switchWait => exact .inl (Option.some.inj h ▸ handleSwitchWait_moves)
  | switchToScreen name => exact .inl (Option.some.inj h ▸ handleSwitchToScreen_moves name)
  | toggleScreen => exact .inl (Option.some.inj h ▸ handleToggleScreen_moves)
  | switchInDirection dir => exact .inl (handleSwitchInDirection_moves h)
  | lockCursorToScreen state => exact .inr ⟨state, rfl⟩
  | recvClipboard c id data => cases he
  | clipboardGrabbed c id seqNum => cases he
  | clipboardChanged c id seqNum => cases he
  | reload config => cases he

theorem handle_cursor {e : Event} (he : e.movesCursor) (h : s.handle env e = some t) : Cursor env s t := by
  rcases handle_moves he h with hmoves | ⟨state, rfl⟩
  · exact hmoves.cursor
  · exact .stays (Option.some.inj h ▸ handleLockCursorToScreen_quiet state)

end Server

end InputLeap
