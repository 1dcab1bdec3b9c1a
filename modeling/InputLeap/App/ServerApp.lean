import InputLeap.App.ClientApp

/-! The application that runs a server. While a server is closed a loop of its own handles whatever events come, until
the clients are gone. -/

namespace InputLeap

inductive ServerState
  | uninitialized
  | initializing
  | initializingToStart
  | initialized
  | starting
  | started
  deriving DecidableEq

inductive ListenAttempt
  | listening
  /-- `XSocketAddressInUse`. -/
  | addressInUse
  | failed

structure ServerApp where
  restartable : Bool
  serverState : ServerState
  /-- Whether there is a `server_screen_`. -/
  screen : Bool
  primaryClient : Bool
  listener : Bool
  server : Bool
  /-- Whether there is an `m_timer`. -/
  timer : Bool
  suspended : Bool
  /-- A `QUIT` has been added. -/
  quit : Bool
  /-- An assertion has failed. -/
  aborted : Bool
  deriving DecidableEq

/-- The events of the application. Those of a loop in which a server is closed come with the event that closes it. -/
inductive ServerAppEvent
  | retry (attempt : ScreenAttempt) (listen : ListenAttempt)
  | screenError
  | suspend (during : List ServerAppEvent)
  | resume (attempt : ScreenAttempt) (listen : ListenAttempt)
  | reset (during : List ServerAppEvent) (attempt : ScreenAttempt) (listen : ListenAttempt)

namespace ServerApp

open ServerState

def new (restartable : Bool) : ServerApp where
  restartable := restartable
  serverState := uninitialized
  screen := false
  primaryClient := false
  listener := false
  server := false
  timer := false
  suspended := false
  quit := false
  aborted := false

variable (a : ServerApp)

def assert (holds : Bool) : ServerApp := if holds then a else { a with aborted := true }

def addQuit (r : Bool × ServerApp) : ServerApp := if r.1 then r.2 else { r.2 with quit := true }

def stopRetryTimer : ServerApp := { a with timer := false }

def retryLater (state : ServerState) : Bool × ServerApp :=
  if a.restartable then (true, { a.assert (!a.timer) with timer := true, serverState := state }) else (false, a)

def initServer (attempt : ScreenAttempt) : Bool × ServerApp :=
  if a.serverState ≠ uninitialized then (true, a)
  else
    match attempt with
    | .opened => (true, { a with primaryClient := true, screen := true, serverState := initialized })
    | .unavailable => a.retryLater initializing
    | .failed => (false, a)

def listen (attempt : ListenAttempt) : Bool × ServerApp :=
  match attempt with
  | .listening => (true, { a with listener := true, server := true, serverState := started })
  | .addressInUse => a.retryLater starting
  | .failed => (false, a)

def startServer (attempt : ScreenAttempt) (listen : ListenAttempt) : Bool × ServerApp :=
  if a.serverState = starting ∨ a.serverState = started then (true, a)
  else if a.serverState = initialized then a.listen listen
  else
    let (initialised, a) := a.initServer attempt
    if !initialised then (false, a)
    else if a.serverState = initializing then (true, { a with serverState := initializingToStart })
    else (a.assert (a.serverState = initialized)).listen listen

/-- `closed` is what the loop of `closeServer` leaves, which is run if the server has started. -/
def stopServer (closed : ServerApp) : ServerApp :=
  let a :=
    if a.serverState = started then { closed with listener := false, server := false, serverState := initialized }
    else if a.serverState = starting then { a.stopRetryTimer with serverState := initialized }
    else a
  a.assert (!a.server && !a.listener)

def cleanupServer (closed : ServerApp) : ServerApp :=
  let a := a.stopServer closed
  let a :=
    if a.serverState = initialized then { a with primaryClient := false, screen := false, serverState := uninitialized }
    else if a.serverState = initializing ∨ a.serverState = initializingToStart then
      { a.stopRetryTimer with serverState := uninitialized }
    else a
  a.assert (!a.primaryClient && !a.screen && a.serverState = uninitialized)

def handleRetry (attempt : ScreenAttempt) (listen : ListenAttempt) : ServerApp :=
  let a := a.stopRetryTimer
  match a.serverState with
  | uninitialized | initialized | started => { a with aborted := true }
  | initializing => addQuit ({ a with serverState := uninitialized }.initServer attempt)
  | initializingToStart =>
    let (initialised, a) := { a with serverState := uninitialized }.initServer attempt
    if !initialised then { a with quit := true }
    else if a.serverState = initialized then addQuit (a.startServer attempt listen)
    else a
  | starting => addQuit ({ a with serverState := initialized }.startServer attempt listen)

mutual

/-- Nothing happens any more when an assertion has failed. -/
def step (a : ServerApp) (e : ServerAppEvent) : ServerApp :=
  if a.aborted then a
  else
    match e with
    | .retry attempt listen => if a.timer then a.handleRetry attempt listen else a
    | .screenError => { a with quit := true }
    | .suspend during => if a.suspended then a else { a.stopServer (a.run during) with suspended := true }
    | .resume attempt listen =>
      if a.suspended then { (a.startServer attempt listen).2 with suspended := false } else a
    | .reset during attempt listen =>
      let a := a.stopServer (a.run during)
      ((a.cleanupServer a).startServer attempt listen).2

def run (a : ServerApp) : List ServerAppEvent → ServerApp
  | [] => a
  | e :: es => (a.step e).run es

end

section Consistent

structure Consistent (a : ServerApp) : Prop where
  timer : a.timer = decide (a.serverState = initializing ∨ a.serverState = initializingToStart ∨ a.serverState = starting)
  screen : a.screen = decide (a.serverState = initialized ∨ a.serverState = starting ∨ a.serverState = started)
  primaryClient : a.primaryClient = a.screen
  listener : a.listener = decide (a.serverState = started)
  server : a.server = a.listener
  aborted : a.aborted = false

def Stoppable (a : ServerApp) : Prop := a.serverState = started ∨ a.serverState = initialized

mutual

/-- A server is not started while one is closed, or at least not so that it has to wait, and no resume comes while the
start waits for the screen. -/
def Orderly (a : ServerApp) : ServerAppEvent → Prop
  | .retry _ _ => True
  | .screenError => True
  | .suspend during =>
    a.suspended = false → a.serverState = started → a.AllOrderly during ∧ (a.run during).Stoppable
  | .resume _ _ => a.suspended = true → a.serverState ≠ initializingToStart
  | .reset during _ _ => a.serverState = started → a.AllOrderly during ∧ (a.run during).Stoppable

def AllOrderly (a : ServerApp) : List ServerAppEvent → Prop
  | [] => True
  | e :: es => a.Orderly e ∧ (a.step e).AllOrderly es

end

variable {a}

def ofState (restartable suspended quit : Bool) (state : ServerState) : ServerApp where
  restartable := restartable
  serverState := state
  screen := decide (state = initialized ∨ state = starting ∨ state = started)
  primaryClient := decide (state = initialized ∨ state = starting ∨ state = started)
  listener := decide (state = started)
  server := decide (state = started)
  timer := decide (state = initializing ∨ state = initializingToStart ∨ state = starting)
  suspended := suspended
  quit := quit
  aborted := false

lemma ofState_consistent (restartable suspended quit : Bool) (state : ServerState) :
    (ofState restartable suspended quit state).Consistent := ⟨rfl, rfl, rfl, rfl, rfl, rfl⟩

lemma Consistent.eq_ofState (h : a.Consistent) : a = ofState a.restartable a.suspended a.quit a.serverState := by
  obtain ⟨restartable, state, screen, primaryClient, listener, server, timer, suspended, quit, aborted⟩ := a
  obtain ⟨htimer, hscreen, hprimary, hlistener, hserver, haborted⟩ := h
  simp_all [ofState]

variable (restartable suspended quit : Bool) {state : ServerState}

lemma startServer_ofState (hstate : state ≠ initializingToStart) (attempt : ScreenAttempt) (listen : ListenAttempt) :
    ∃ state', ((ofState restartable suspended quit state).startServer attempt listen).2 =
      ofState restartable suspended quit state' := by
  cases state with
  | initializingToStart => exact absurd rfl hstate
  | _ => cases restartable <;> cases attempt <;> cases listen <;> exact ⟨_, rfl⟩

lemma handleRetry_ofState
    (hstate : state = initializing ∨ state = initializingToStart ∨ state = starting) (attempt : ScreenAttempt)
    (listen : ListenAttempt) :
    ∃ quit' state', (ofState restartable suspended quit state).handleRetry attempt listen =
      ofState restartable suspended quit' state' := by
  rcases hstate with rfl | rfl | rfl
  · cases restartable <;> cases attempt <;> exact ⟨_, _, rfl⟩
  · cases restartable <;> cases attempt <;> cases listen <;> exact ⟨_, _, rfl⟩
  · cases restartable <;> cases listen <;> exact ⟨_, _, rfl⟩

lemma stopServer_ofState (closed : ServerApp) (h : state = started → closed.Consistent ∧ closed.Stoppable) :
    ∃ restartable' suspended' quit' state', (state' ≠ started ∧ state' ≠ starting) ∧
      (ofState restartable suspended quit state).stopServer closed = ofState restartable' suspended' quit' state' := by
  by_cases hstate : state = started
  · obtain ⟨hclosed, hstop⟩ := h hstate
    obtain rfl := hstate
    refine ⟨closed.restartable, closed.suspended, closed.quit, initialized, ⟨by decide, by decide⟩, ?_⟩
    rw [hclosed.eq_ofState]
    rcases hstop with hstop | hstop
    · rw [hstop]
      rfl
    · rw [hstop]
      rfl
  · cases state with
    | started => exact absurd rfl hstate
    | starting => exact ⟨_, _, _, initialized, ⟨by decide, by decide⟩, rfl⟩
    | _ => exact ⟨_, _, _, _, ⟨by decide, by decide⟩, rfl⟩

lemma cleanupServer_ofState (closed : ServerApp) (h : state = started → closed.Consistent ∧ closed.Stoppable) :
    ∃ restartable' suspended' quit', (ofState restartable suspended quit state).cleanupServer closed =
      ofState restartable' suspended' quit' uninitialized := by
  obtain ⟨restartable', suspended', quit', state', hstate, hstop⟩ :=
    stopServer_ofState restartable suspended quit closed h
  refine ⟨restartable', suspended', quit', ?_⟩
  rw [cleanupServer, hstop]
  cases state' with
  | started => exact absurd rfl hstate.1
  | starting => exact absurd rfl hstate.2
  | _ => rfl

lemma suspend_consistent {during : List ServerAppEvent}
    (h : suspended = false → state = started → ((ofState restartable suspended quit state).run during).Consistent ∧
      ((ofState restartable suspended quit state).run during).Stoppable) :
    ((ofState restartable suspended quit state).step (.suspend during)).Consistent := by
  have hstep : (ofState restartable suspended quit state).step (.suspend during) =
      if suspended then ofState restartable suspended quit state
      else { (ofState restartable suspended quit state).stopServer ((ofState restartable suspended quit state).run during) with
        suspended := true } := by
    rw [step]
    rfl
  rw [hstep]
  split_ifs with hsuspended
  · exact ofState_consistent _ _ _ _
  · obtain ⟨restartable', suspended', quit', state', -, hstop⟩ :=
      stopServer_ofState restartable suspended quit _ (h (Bool.eq_false_iff.mpr hsuspended))
    rw [hstop]
    exact ofState_consistent restartable' true quit' state'

lemma reset_consistent {during : List ServerAppEvent} (attempt : ScreenAttempt) (listen : ListenAttempt)
    (h : state = started → ((ofState restartable suspended quit state).run during).Consistent ∧
      ((ofState restartable suspended quit state).run during).Stoppable) :
    ((ofState restartable suspended quit state).step (.reset during attempt listen)).Consistent := by
  obtain ⟨restartable', suspended', quit', state', hstate, hstop⟩ := stopServer_ofState restartable suspended quit _ h
  have hstep : (ofState restartable suspended quit state).step (.reset during attempt listen) =
      (((ofState restartable' suspended' quit' state').cleanupServer (ofState restartable' suspended' quit' state')).startServer
        attempt listen).2 := by
    rw [step, ← hstop]
    rfl
  obtain ⟨restartable'', suspended'', quit'', hcleanup⟩ := cleanupServer_ofState restartable' suspended' quit'
    (ofState restartable' suspended' quit' state') fun hstarted => absurd hstarted hstate.1
  obtain ⟨state'', hstart⟩ := startServer_ofState restartable'' suspended'' quit''
    (show uninitialized ≠ initializingToStart by decide) attempt listen
  rw [hstep, hcleanup, hstart]
  exact ofState_consistent restartable'' suspended'' quit'' state''

lemma resume_consistent (attempt : ScreenAttempt) (listen : ListenAttempt)
    (h : suspended = true → state ≠ initializingToStart) :
    ((ofState restartable suspended quit state).step (.resume attempt listen)).Consistent := by
  have hstep : (ofState restartable suspended quit state).step (.resume attempt listen) =
      if suspended then
        { ((ofState restartable suspended quit state).startServer attempt listen).2 with suspended := false }
      else ofState restartable suspended quit state := by
    rw [step]
    rfl
  rw [hstep]
  split_ifs with hsuspended
  · obtain ⟨state', hstart⟩ := startServer_ofState restartable suspended quit (h hsuspended) attempt listen
    rw [hstart]
    exact ofState_consistent restartable false quit state'
  · exact ofState_consistent restartable suspended quit state

lemma retry_consistent (attempt : ScreenAttempt) (listen : ListenAttempt) :
    ((ofState restartable suspended quit state).step (.retry attempt listen)).Consistent := by
  have hstep : (ofState restartable suspended quit state).step (.retry attempt listen) =
      if decide (state = initializing ∨ state = initializingToStart ∨ state = starting) then
        (ofState restartable suspended quit state).handleRetry attempt listen
      else ofState restartable suspended quit state := by
    rw [step]
    rfl
  rw [hstep]
  split_ifs with hwaits
  · obtain ⟨quit', state', hretry⟩ :=
      handleRetry_ofState restartable suspended quit (of_decide_eq_true hwaits) attempt listen
    rw [hretry]
    exact ofState_consistent restartable suspended quit' state'
  · exact ofState_consistent restartable suspended quit state

mutual

lemma step_consistent (a : ServerApp) (e : ServerAppEvent) (h : a.Consistent) (he : a.Orderly e) :
    (a.step e).Consistent := by
  rw [h.eq_ofState] at he ⊢
  match e with
  | .retry attempt listen => exact retry_consistent _ _ _ attempt listen
  | .screenError =>
    rw [step]
    exact ofState_consistent _ _ true _
  | .suspend during =>
    apply suspend_consistent
    intro hsuspended hstate
    obtain ⟨hduring, hstop⟩ := he hsuspended hstate
    exact ⟨run_consistent _ during (ofState_consistent _ _ _ _) hduring, hstop⟩
  | .resume attempt listen => exact resume_consistent _ _ _ attempt listen he
  | .reset during attempt listen =>
    apply reset_consistent
    intro hstate
    obtain ⟨hduring, hstop⟩ := he hstate
    exact ⟨run_consistent _ during (ofState_consistent _ _ _ _) hduring, hstop⟩

lemma run_consistent (a : ServerApp) (es : List ServerAppEvent) (h : a.Consistent) (hes : a.AllOrderly es) :
    (a.run es).Consistent := by
  match es with
  | [] =>
    rw [run]
    exact h
  | e :: es =>
    rw [AllOrderly] at hes
    rw [run]
    exact run_consistent _ es (step_consistent a e h hes.1) hes.2

end

end Consistent

section Runs

variable {a : ServerApp} {restartable : Bool} {attempt : ScreenAttempt} {listen : ListenAttempt}

lemma start_consistent (hstart : (new restartable).startServer attempt listen = (true, a)) : a.Consistent := by
  obtain ⟨state, hstate⟩ := startServer_ofState restartable false false
    (show uninitialized ≠ initializingToStart by decide) attempt listen
  have ha : a = ofState restartable false false state := (congrArg Prod.snd hstart).symm.trans hstate
  exact ha ▸ ofState_consistent restartable false false state

/-- As long as no server is started while one is closed, and none is resumed that waits for the screen, the screen, the
listener, the server and the timer are there when the state says so. At the end nothing is left of them. -/
theorem run_orderly (hstart : (new restartable).startServer attempt listen = (true, a)) {es : List ServerAppEvent}
    (hes : a.AllOrderly es) :
    (a.run es).Consistent ∧ ∀ during : List ServerAppEvent,
      ((a.run es).serverState = started → (a.run es).AllOrderly during ∧ ((a.run es).run during).Stoppable) →
        ((a.run es).cleanupServer ((a.run es).run during)).Consistent ∧
          ((a.run es).cleanupServer ((a.run es).run during)).serverState = uninitialized := by
  have hrun := run_consistent a es (start_consistent hstart) hes
  refine ⟨hrun, fun during hduring => ?_⟩
  generalize a.run es = b at hrun hduring ⊢
  rw [hrun.eq_ofState] at hduring ⊢
  obtain ⟨restartable', suspended', quit', hcleanup⟩ :=
    cleanupServer_ofState b.restartable b.suspended b.quit _ fun hstate : b.serverState = started =>
      ⟨run_consistent _ during (ofState_consistent _ _ _ _) (hduring hstate).1, (hduring hstate).2⟩
  rw [hcleanup]
  exact ⟨ofState_consistent restartable' suspended' quit' uninitialized, rfl⟩

def Retries : ServerAppEvent → Prop
  | .retry _ _ | .screenError | .suspend _ => True
  | .resume _ _ | .reset _ _ _ => False

def Idle (a : ServerApp) : Prop :=
  a.Consistent ∧ (a.serverState = uninitialized ∨ a.serverState = initializing ∨ a.serverState = initialized)

lemma ofState_idle (suspended quit : Bool) {state : ServerState}
    (h : state = uninitialized ∨ state = initializing ∨ state = initialized) :
    (ofState restartable suspended quit state).Idle := ⟨ofState_consistent _ _ _ _, h⟩

lemma step_idle (h : a.Idle) {e : ServerAppEvent} (he : Retries e) : (a.step e).Idle := by
  obtain ⟨hconsistent, hstate⟩ := h
  rw [hconsistent.eq_ofState]
  generalize a.serverState = state at hstate
  cases e with
  | retry attempt listen =>
    rcases hstate with rfl | rfl | rfl
    · exact ofState_idle _ _ (by simp)
    · have hstep : (ofState a.restartable a.suspended a.quit initializing).step (.retry attempt listen) =
          (ofState a.restartable a.suspended a.quit initializing).handleRetry attempt listen := by
        rw [step]
        rfl
      rw [hstep]
      cases attempt with
      | opened => exact ofState_idle _ _ (.inr (.inr rfl))
      | unavailable =>
        cases a.restartable with
        | false => exact ofState_idle _ true (.inl rfl)
        | true => exact ofState_idle _ _ (.inr (.inl rfl))
      | failed => exact ofState_idle _ true (.inl rfl)
    · exact ofState_idle _ _ (by simp)
  | screenError => exact ofState_idle _ true hstate
  | suspend during =>
    have hstep : (ofState a.restartable a.suspended a.quit state).step (.suspend during) =
        if a.suspended then ofState a.restartable a.suspended a.quit state
        else ofState a.restartable true a.quit state := by
      rcases hstate with rfl | rfl | rfl
      · rw [step]
        rfl
      · rw [step]
        rfl
      · rw [step]
        rfl
    rw [hstep]
    split_ifs <;> exact ofState_idle _ _ hstate
  | resume attempt listen => exact he.elim
  | reset during attempt listen => exact he.elim

lemma run_idle (h : a.Idle) {es : List ServerAppEvent} (hes : ∀ e ∈ es, Retries e) : (a.run es).Idle := by
  induction es generalizing a with
  | nil =>
    rw [run]
    exact h
  | cons e es ih =>
    rw [run]
    exact ih (step_idle h (hes e List.mem_cons_self)) fun e he => hes e (List.mem_cons_of_mem _ he)

/-- If the screen is not available when the application starts, nor when that is tried again, no retry starts the
server, whatever it finds. -/
theorem unavailable_twice {listen' : ListenAttempt}
    (hstart : (new restartable).startServer .unavailable listen = (true, a)) {es : List ServerAppEvent}
    (hes : ∀ e ∈ es, Retries e) :
    ((a.step (.retry .unavailable listen')).run es).server = false ∧
      ((a.step (.retry .unavailable listen')).run es).listener = false := by
  cases restartable with
  | false => simp [startServer, initServer, retryLater, new] at hstart
  | true =>
    have ha : a = ofState true false false initializingToStart := (congrArg Prod.snd hstart).symm
    have hretry : a.step (.retry .unavailable listen') = ofState true false false initializing := by
      rw [ha, step]
      rfl
    obtain ⟨hconsistent, hstate⟩ := run_idle (hretry ▸ ofState_idle _ _ (by simp)) hes
    have hlistener : ((a.step (.retry .unavailable listen')).run es).listener = false := by
      rw [hconsistent.listener]
      rcases hstate with h | h | h <;> simp [h]
    exact ⟨hconsistent.server.trans hlistener, hlistener⟩

def closingEvents : List ServerAppEvent := [.suspend [.screenError, .suspend []], .resume .opened .addressInUse]

theorem run_orderly_suspended :
    (run (ofState true false false started) closingEvents).Consistent := by
  have hes : (ofState true false false started).AllOrderly closingEvents :=
    ⟨fun _ _ => ⟨⟨trivial, fun _ _ => ⟨trivial, .inl rfl⟩, trivial⟩, .inr rfl⟩, fun _ => by decide, trivial⟩
  have hstart : (new true).startServer .opened .listening = (true, ofState true false false started) := rfl
  exact (run_orderly hstart hes).1

def missingRetries : List ServerAppEvent := [.retry .opened .listening, .retry .opened .listening]

theorem unavailable_twice_opened :
    (((ofState true false false initializingToStart).step (.retry .unavailable .listening)).run missingRetries).server =
      false := by
  have hstart : (new true).startServer .unavailable .listening = (true, ofState true false false initializingToStart) := rfl
  exact (unavailable_twice hstart (by simp [missingRetries, Retries])).1

end Runs

end ServerApp

end InputLeap
