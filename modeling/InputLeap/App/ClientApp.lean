import InputLeap.Client.UnderWay
import InputLeap.Lib.Reachable

/-! The application that runs a client. It opens the screen, and starts the client anew some time after each failure. -/

namespace InputLeap

open Lib Client

inductive ScreenAttempt
  | opened
  /-- `XScreenUnavailable`. -/
  | unavailable
  | failed

structure ClientApp where
  restartable : Bool
  /-- `m_client`, which is there with `m_clientScreen`. -/
  client : Option Client
  /-- The timers with a handler `handle_client_restart`. -/
  restarts : ℕ
  /-- So many events of the client have been dispatched. -/
  dispatched : ℕ
  /-- A `QUIT` has been added. -/
  quit : Bool

namespace ClientApp

def new (restartable : Bool) : ClientApp where
  restartable := restartable
  client := none
  restarts := 0
  dispatched := 0
  quit := false

def scheduleClientRestart (a : ClientApp) : ClientApp := { a with restarts := a.restarts + 1 }

/-- `failure` is what is thrown when the client connects. -/
def startClient (a : ClientApp) (attempt : ScreenAttempt) (failure : Option String) : Bool × ClientApp :=
  match a.client with
  | some c => (true, { a with client := some (c.connect failure) })
  | none =>
    match attempt with
    | .opened => (true, { a with client := some (Client.new.connect failure) })
    | .unavailable => if a.restartable then (true, a.scheduleClientRestart) else (false, a)
    | .failed => (false, a)

/-- What `startClient` returns is not looked at. -/
def handleClientRestart (a : ClientApp) (attempt : ScreenAttempt) (failure : Option String) : ClientApp :=
  ({ a with restarts := a.restarts - 1 }.startClient attempt failure).2

/-- The application is not suspended, and the event says that there is to be a retry. -/
def handle (a : ClientApp) : ClientEvent → ClientApp
  | .connected => a
  | .connectionFailed _ | .disconnected => if a.restartable then a.scheduleClientRestart else { a with quit := true }

inductive Step
  | client (e : ClientStep)
  /-- The next event of the client. -/
  | dispatch
  | restart (attempt : ScreenAttempt) (failure : Option String)
  | screenError

def next (a : ClientApp) : Step → Option ClientApp
  -- it is the application that connects
  | .client (.connect _) => none
  | .client e => a.client.map fun c => { a with client := some (c.step e) }
  | .dispatch =>
    match a.client with
    | some c => (c.events[a.dispatched]?).map fun e => { a with dispatched := a.dispatched + 1 }.handle e
    | none => none
  | .restart attempt failure => if 0 < a.restarts then some (a.handleClientRestart attempt failure) else none
  | .screenError => if a.client.isSome then some { a with quit := true } else none

/-- `startNode`, which exits if `startClient` returns false. -/
def Initial (a : ClientApp) : Prop :=
  ∃ restartable attempt failure, (new restartable).startClient attempt failure = (true, a)

/-- Something goes on: the application ends, the client is started again, or a connection is under way. -/
def Alive (a : ClientApp) : Prop :=
  a.quit = true ∨ 0 < a.restarts ∨ ∃ c, a.client = some c ∧ (c.Busy ∨ ∃ e ∈ c.events.drop a.dispatched, e.Ends)

def Opens (a : ClientApp) : Step → Prop
  | .restart .failed _ => a.client ≠ none
  | _ => True

structure Invariant (a : ClientApp) : Prop where
  client : ∀ c, a.client = some c → c.Coherent ∧ a.dispatched ≤ c.events.length ∧ a.Alive
  screen : a.client = none → a.quit = false ∧ a.dispatched = 0 ∧ (a.restarts = 0 ∨ a.restarts = 1 ∧ a.restartable = true)

variable {a b : ClientApp}

lemma alive_none (hnone : a.client = none) (hquit : a.quit = false) : a.Alive ↔ 0 < a.restarts := by
  simp [Alive, hnone, hquit]

lemma mem_drop_append {events added : List ClientEvent} {k : ℕ} {e : ClientEvent} (hk : k ≤ events.length) :
    e ∈ (events ++ added).drop k ↔ e ∈ events.drop k ∨ e ∈ added := by
  rw [List.drop_append_of_le_length hk, List.mem_append]

lemma client_alive {c d : Client} (hclient : a.client = some c) (halive : a.Alive) (hk : a.dispatched ≤ c.events.length)
    (hgoes : Goes c d) : Alive { a with client := some d } := by
  obtain ⟨added, hadded, hbusy⟩ := hgoes
  rcases halive with hquit | hrestarts | ⟨c', hc', hgoing⟩
  · exact .inl hquit
  · exact .inr (.inl hrestarts)
  obtain rfl := Option.some.inj (hclient.symm.trans hc')
  refine .inr (.inr ⟨d, rfl, ?_⟩)
  rw [hadded]
  rcases hgoing with hb | ⟨e, he, hends⟩
  · rcases hbusy hb with hbusy' | ⟨e, he, hends⟩
    · exact .inl hbusy'
    · exact .inr ⟨e, (mem_drop_append hk).mpr (.inr he), hends⟩
  · exact .inr ⟨e, (mem_drop_append hk).mpr (.inl he), hends⟩

lemma connect_alive {c : Client} (hc : c.Coherent) (hk : a.dispatched ≤ c.events.length) (failure : Option String) :
    Alive { a with client := some (c.connect failure) } ∧ a.dispatched ≤ (c.connect failure).events.length ∧
      (c.connect failure).Coherent := by
  obtain ⟨hcoherent, added, hadded, hdone⟩ := connect_goes hc failure
  refine ⟨.inr (.inr ⟨_, rfl, ?_⟩), ?_, hcoherent⟩
  · rw [hadded]
    rcases hdone with hbusy | ⟨e, he, hends⟩
    · exact .inl hbusy
    · exact .inr ⟨e, (mem_drop_append hk).mpr (.inr he), hends⟩
  · rw [hadded, List.length_append]
    omega

lemma next_client {e : ClientStep} (h : a.next (.client e) = some b) :
    ∃ c, a.client = some c ∧ b = { a with client := some (c.step e) } := by
  have hmap : (a.client.map fun c => { a with client := some (c.step e) }) = some b := by
    cases e with
    | connect failure => contradiction
    | _ => exact h
  obtain ⟨c, hc, rfl⟩ := Option.map_eq_some_iff.mp hmap
  exact ⟨c, hc, rfl⟩

lemma handle_alive (ha : a.Alive) {c : Client} {e : ClientEvent} (hclient : a.client = some c)
    (he : c.events[a.dispatched]? = some e) :
    ({ a with dispatched := a.dispatched + 1 }.handle e).Alive := by
  have hended : e.Ends → ({ a with dispatched := a.dispatched + 1 }.handle e).Alive := by
    intro hends
    cases e with
    | connected => exact absurd rfl hends
    | _ =>
      rw [handle]
      split_ifs
      · exact .inr (.inl (Nat.succ_pos _))
      · exact .inl rfl
  by_cases hends : e.Ends
  · exact hended hends
  obtain rfl : e = .connected := not_not.mp hends
  rcases ha with hquit | hrestarts | ⟨c', hc', hgoing⟩
  · exact .inl hquit
  · exact .inr (.inl hrestarts)
  · refine .inr (.inr ⟨c', hc', hgoing.imp_right ?_⟩)
    obtain rfl := Option.some.inj (hclient.symm.trans hc')
    rintro ⟨e, hmem, hends⟩
    rw [List.drop_eq_getElem?_toList_append, he] at hmem
    rcases List.mem_append.mp hmem with hfirst | hrest
    · exact absurd (List.mem_singleton.mp hfirst) hends
    · exact ⟨e, hrest, hends⟩

lemma handle_client (a : ClientApp) (e : ClientEvent) : (a.handle e).client = a.client ∧ (a.handle e).dispatched = a.dispatched := by
  cases e with
  | connected => exact ⟨rfl, rfl⟩
  | _ =>
    rw [handle]
    split_ifs <;> exact ⟨rfl, rfl⟩

lemma invariant_some {c : Client} (hclient : a.client = some c) (hc : c.Coherent) (hk : a.dispatched ≤ c.events.length)
    (halive : a.Alive) : a.Invariant where
  client c' hc' := by
    obtain rfl := Option.some.inj (hclient.symm.trans hc')
    exact ⟨hc, hk, halive⟩
  screen hnone := by simp [hclient] at hnone

lemma new_invariant (hk : a.dispatched = 0) (failure : Option String) :
    Invariant { a with client := some (Client.new.connect failure) } ∧
      Alive { a with client := some (Client.new.connect failure) } := by
  obtain ⟨halive, hle, hcoherent⟩ := connect_alive (a := a) Client.new_coherent (hk ▸ Nat.zero_le _) failure
  exact ⟨invariant_some rfl hcoherent hle halive, halive⟩

lemma scheduled_invariant (hclient : a.client = none) (hquit : a.quit = false) (hk : a.dispatched = 0)
    (hrestarts : a.restarts = 0) (hrestartable : a.restartable = true) :
    a.scheduleClientRestart.Invariant ∧ a.scheduleClientRestart.Alive := by
  refine ⟨⟨fun c hc => ?_, fun _ => ⟨hquit, hk, .inr ⟨?_, hrestartable⟩⟩⟩, .inr (.inl (Nat.succ_pos _))⟩
  · simp [scheduleClientRestart, hclient] at hc
  · simp [scheduleClientRestart, hrestarts]

lemma handleClientRestart_invariant (h : a.Invariant) (hrestarts : 0 < a.restarts) (attempt : ScreenAttempt)
    (failure : Option String) :
    (a.handleClientRestart attempt failure).Invariant ∧
      ((a.handleClientRestart attempt failure).Alive ↔ a.Alive ∧ a.Opens (.restart attempt failure)) := by
  have halive : a.Alive := .inr (.inl hrestarts)
  cases hclient : a.client with
  | some c =>
    obtain ⟨hc, hk, -⟩ := h.client c hclient
    have hrestart : a.handleClientRestart attempt failure =
        { a with restarts := a.restarts - 1, client := some (c.connect failure) } := by
      simp [handleClientRestart, startClient, hclient]
    have hopens : a.Opens (.restart attempt failure) := by
      cases attempt <;> simp [Opens, hclient]
    obtain ⟨halive', hle, hcoherent⟩ := connect_alive (a := { a with restarts := a.restarts - 1 }) hc hk failure
    rw [hrestart]
    exact ⟨invariant_some rfl hcoherent hle halive', iff_of_true halive' ⟨halive, hopens⟩⟩
  | none =>
    obtain ⟨hquit, hk, hzero | ⟨hone, hrestartable⟩⟩ := h.screen hclient
    · omega
    have hlast : { a with restarts := a.restarts - 1 }.restarts = 0 := by
      change a.restarts - 1 = 0
      omega
    cases attempt with
    | opened =>
      have hrestart : a.handleClientRestart .opened failure =
          { a with restarts := a.restarts - 1, client := some (Client.new.connect failure) } := by
        simp [handleClientRestart, startClient, hclient]
      obtain ⟨hinv, halive'⟩ := new_invariant (a := { a with restarts := a.restarts - 1 }) hk failure
      exact hrestart ▸ ⟨hinv, iff_of_true halive' ⟨halive, trivial⟩⟩
    | unavailable =>
      have hrestart : a.handleClientRestart .unavailable failure =
          { a with restarts := a.restarts - 1 }.scheduleClientRestart := by
        simp [handleClientRestart, startClient, hclient, hrestartable]
      obtain ⟨hinv, halive'⟩ := scheduled_invariant (a := { a with restarts := a.restarts - 1 }) hclient hquit hk hlast
        hrestartable
      exact hrestart ▸ ⟨hinv, iff_of_true halive' ⟨halive, trivial⟩⟩
    | failed =>
      have hrestart : a.handleClientRestart .failed failure = { a with restarts := a.restarts - 1 } := by
        simp [handleClientRestart, startClient, hclient]
      rw [hrestart]
      refine ⟨⟨fun c hc => ?_, fun _ => ⟨hquit, hk, .inl hlast⟩⟩, iff_of_false ?_ fun hopens => hopens.2 hclient⟩
      · simp [hclient] at hc
      · exact fun halive' => absurd ((alive_none (a := { a with restarts := a.restarts - 1 }) hclient hquit).mp halive')
          (hlast ▸ Nat.lt_irrefl 0)

lemma next_invariant {e : Step} (h : a.Invariant) (hnext : a.next e = some b) :
    b.Invariant ∧ (b.Alive ↔ a.Alive ∧ a.Opens e) := by
  cases e with
  | client e =>
    obtain ⟨c, hclient, rfl⟩ := next_client hnext
    obtain ⟨hc, hk, halive⟩ := h.client c hclient
    obtain ⟨hcoherent, hgoes⟩ := step_goes hc e
    have halive' := client_alive hclient halive hk hgoes
    obtain ⟨added, hadded, -⟩ := hgoes
    have hk' : a.dispatched ≤ (c.step e).events.length := by
      rw [hadded, List.length_append]
      omega
    exact ⟨invariant_some rfl hcoherent hk' halive', iff_of_true halive' ⟨halive, trivial⟩⟩
  | dispatch =>
    rw [next] at hnext
    split at hnext
    · rename_i c hclient
      obtain ⟨e, he, rfl⟩ := Option.map_eq_some_iff.mp hnext
      obtain ⟨hc, hk, halive⟩ := h.client c hclient
      obtain ⟨hsame, hdispatched⟩ := handle_client { a with dispatched := a.dispatched + 1 } e
      have halive' := handle_alive halive hclient he
      have hk' : a.dispatched + 1 ≤ c.events.length := (List.getElem?_eq_some_iff.mp he).1
      exact ⟨invariant_some (hsame.trans hclient) hc (hdispatched ▸ hk') halive',
        iff_of_true halive' ⟨halive, trivial⟩⟩
    · contradiction
  | restart attempt failure =>
    rw [next] at hnext
    split_ifs at hnext with hrestarts
    exact Option.some.inj hnext ▸ handleClientRestart_invariant h hrestarts attempt failure
  | screenError =>
    rw [next] at hnext
    split_ifs at hnext with hsome
    obtain ⟨c, hclient⟩ := Option.isSome_iff_exists.mp hsome
    obtain ⟨hc, hk, halive⟩ := h.client c hclient
    obtain rfl := Option.some.inj hnext
    have halive' : Alive { a with quit := true } := .inl rfl
    exact ⟨invariant_some hclient hc hk halive', iff_of_true halive' ⟨halive, trivial⟩⟩

lemma initial_invariant (ha : a.Initial) : a.Invariant ∧ a.Alive := by
  obtain ⟨restartable, attempt, failure, hstart⟩ := ha
  cases attempt with
  | opened =>
    obtain rfl := (Prod.mk.inj hstart).2
    exact new_invariant (a := new restartable) rfl failure
  | unavailable =>
    cases restartable with
    | true =>
      obtain rfl := (Prod.mk.inj hstart).2
      exact scheduled_invariant (a := new true) rfl rfl rfl rfl rfl
    | false => simp [startClient, new] at hstart
  | failed => simp [startClient, new] at hstart

/-- The application is stuck exactly if a retry has found the screen to be missing for good. -/
theorem alive_iff (ha : a.Initial) {es : List Step} (hrun : runFrom next es a = some b) :
    b.Alive ↔ Along next Opens es a := by
  obtain ⟨hinv, halive⟩ := initial_invariant ha
  have hiff : b.Alive ↔ a.Alive ∧ Along next Opens es a :=
    iff_along (fun _ _ _ hs hnext => (next_invariant hs hnext).1) (fun _ _ _ hs hnext => (next_invariant hs hnext).2)
      hinv hrun
  exact hiff.trans (and_iff_right halive)

def missingSteps : List Step := [.restart .unavailable none, .restart .failed none]

/-- The screen is not there yet at the start, and missing for good when it is tried again. -/
theorem alive_iff_missing : ∃ b, runFrom next missingSteps ⟨true, none, 1, 0, false⟩ = some b ∧ ¬b.Alive := by
  have hrun : runFrom next missingSteps ⟨true, none, 1, 0, false⟩ = some ⟨true, none, 0, 0, false⟩ := rfl
  refine ⟨_, hrun, fun halive => ?_⟩
  have hinitial : Initial ⟨true, none, 1, 0, false⟩ := ⟨true, .unavailable, none, rfl⟩
  have halong := (alive_iff hinitial hrun).mp halive
  exact (halong.2 _ rfl).1 rfl

end ClientApp

end InputLeap
