import InputLeap.Server.UnknownClients

/-! The listener of the server. A connection is a socket first, then a client that is not known yet, then one that waits
until the server adopts it. -/

namespace InputLeap

open InputLeap.Lib InputLeap.Io InputLeap.Protocol
open scoped List

inductive ListenerEvent
  | clientListenerAccepted (number : ℕ)
  | clientListenerConnected
  deriving DecidableEq

structure NewClient where
  number : ℕ
  unknown : ClientProxyUnknown

/-- A client whose handshake is over, with the events in the queue that are for its proxy. -/
structure WaitingClient where
  number : ℕ
  proxy : ClientProxy
  queue : List HandshakeEvent

structure ClientListener where
  /-- `security_level_` is `PLAINTEXT`. -/
  plaintext : Bool
  clientSockets : List ℕ
  newClients : List NewClient
  waitingClients : List WaitingClient
  /-- The clients that the server has. -/
  adopted : List WaitingClient
  /-- The events in the queue that are for the sockets and for the listener. -/
  queue : List ListenerEvent
  /-- Ghosts: the connections that there have been, those whose handshake went well, and those that are closed. -/
  connections : ℕ
  ready : List ℕ
  gone : List ℕ
  /-- An event has come for a socket that is no longer there. -/
  thrown : Bool

namespace ClientListener

def listening (plaintext : Bool) : ClientListener where
  plaintext := plaintext
  clientSockets := []
  newClients := []
  waitingClients := []
  adopted := []
  queue := []
  connections := 0
  ready := []
  gone := []
  thrown := false

variable (l : ClientListener)

/-- Without TLS a socket is accepted at once. -/
def handleClientConnecting (socket : Bool) : ClientListener :=
  if socket then
    { l with
      clientSockets := l.clientSockets ++ [l.connections]
      queue := if l.plaintext then l.queue ++ [.clientListenerAccepted l.connections] else l.queue
      connections := l.connections + 1 }
  else l

def handleClientAccepted (number : ℕ) : ClientListener :=
  if number ∈ l.clientSockets then
    { l with
      clientSockets := l.clientSockets.erase number
      newClients := l.newClients ++ [⟨number, .new .new⟩] }
  else { l with thrown := true }

def handleUnknownClient (c : NewClient) : ClientListener :=
  let l := { l with newClients := l.newClients.eraseP fun d => d.number = c.number }
  match c.unknown.orphanClientProxy.1 with
  | some p =>
    { l with
      waitingClients := l.waitingClients ++ [⟨c.number, p, c.unknown.queue⟩]
      queue := l.queue ++ [.clientListenerConnected]
      ready := l.ready ++ [c.number] }
  | none => { l with gone := l.gone ++ [c.number] }

def getNextClient : Option WaitingClient × ClientListener :=
  match l.waitingClients with
  | [] => (none, l)
  | c :: cs => (some c, { l with waitingClients := cs })

/-- `ServerApp::handle_client_connected`. -/
def handleClientConnected : ClientListener :=
  match l.getNextClient with
  | (none, l) => l
  | (some c, l) => { l with adopted := l.adopted ++ [c] }

/-- `ClientListener::handle_client_disconnected`. -/
def handleWaitingDisconnected (number : ℕ) : ClientListener :=
  { l with
    waitingClients := l.waitingClients.eraseP fun c => c.number = number
    gone := l.gone ++ [number] }

/-- `Server::handle_client_disconnected`, and `handle_client_close_timeout`. -/
def handleAdoptedDisconnected (number : ℕ) : ClientListener :=
  { l with
    adopted := l.adopted.eraseP fun c => c.number = number
    gone := l.gone ++ [number] }

def newClient (number : ℕ) : Option NewClient := l.newClients.find? fun c => c.number = number

def setUnknown (number : ℕ) (u : ClientProxyUnknown) : ClientListener :=
  { l with newClients := l.newClients.map fun c => if c.number = number then { c with unknown := u } else c }

def setClient (c : WaitingClient) (cs : List WaitingClient) : List WaitingClient :=
  cs.map fun d => if d.number = c.number then c else d

end ClientListener

namespace WaitingClient

/-- `ClientProxy1_6::disconnect`, which the handlers for the stream call. -/
def disconnect (c : WaitingClient) : WaitingClient :=
  if c.proxy.listens then
    { c with proxy := { c.proxy with listens := false }, queue := c.queue ++ [.clientProxyDisconnected] }
  else c

end WaitingClient

inductive ListenerStep
  | connecting (socket : Bool)
  /-- The TLS handshake of a socket is over. -/
  | secureAccepted (number : ℕ)
  | dispatch
  | unknown (number : ℕ) (e : ClientProxyUnknown.UnknownStep)
  /-- The connection of a client whose handshake is over is lost. -/
  | disconnect (number : ℕ)
  /-- The next event that is for the proxy of such a client. -/
  | dispatchTo (number : ℕ)
  | closeTimeout (number : ℕ)

namespace ClientListener

variable (l : ClientListener)

def stepUnknown (number : ℕ) (e : ClientProxyUnknown.UnknownStep) : Option ClientListener :=
  (l.newClient number).bind fun c =>
    match e, c.unknown.queue with
    | .dispatch, .clientProxyUnknownSuccess :: es | .dispatch, .clientProxyUnknownFailure :: es =>
      some (l.handleUnknownClient { c with unknown := { c.unknown with queue := es } })
    | e, _ => (c.unknown.next e).map (l.setUnknown number)

def dispatchWaiting (c : WaitingClient) : Option ClientListener :=
  match c.queue with
  | [] => none
  | .clientProxyDisconnected :: _ => some (l.handleWaitingDisconnected c.number)
  | _ :: es => some { l with waitingClients := setClient { c with queue := es } l.waitingClients }

def dispatchAdopted (c : WaitingClient) : Option ClientListener :=
  match c.queue with
  | [] => none
  | .clientProxyDisconnected :: _ => some (l.handleAdoptedDisconnected c.number)
  | _ :: es => some { l with adopted := setClient { c with queue := es } l.adopted }

def dispatchTo (number : ℕ) : Option ClientListener :=
  match l.waitingClients.find? fun c => c.number = number with
  | some c => l.dispatchWaiting c
  | none => (l.adopted.find? fun c => c.number = number).bind l.dispatchAdopted

def next : ListenerStep → Option ClientListener
  | .connecting socket => some (l.handleClientConnecting socket)
  | .secureAccepted number =>
    if number ∈ l.clientSockets ∧ .clientListenerAccepted number ∉ l.queue then
      some { l with queue := l.queue ++ [.clientListenerAccepted number] }
    else none
  | .dispatch =>
    match l.queue with
    | [] => none
    | .clientListenerAccepted number :: es => some ({ l with queue := es }.handleClientAccepted number)
    | .clientListenerConnected :: es => some { l with queue := es }.handleClientConnected
  | .unknown number e => l.stepUnknown number e
  | .disconnect number =>
    some { l with
      waitingClients := l.waitingClients.map fun c => if c.number = number then c.disconnect else c
      adopted := l.adopted.map fun c => if c.number = number then c.disconnect else c }
  | .dispatchTo number => l.dispatchTo number
  | .closeTimeout number =>
    (l.adopted.find? fun c => c.number = number).map fun _ => l.handleAdoptedDisconnected number

def Quiet : Prop :=
  l.queue = [] ∧ (∀ c ∈ l.newClients, c.unknown.queue = [] ∧ c.unknown.timer = false) ∧
    ∀ c ∈ l.waitingClients ++ l.adopted, c.queue = []

def numbers : List ℕ :=
  l.clientSockets ++ l.newClients.map NewClient.number ++ l.waitingClients.map WaitingClient.number ++
    l.adopted.map WaitingClient.number ++ l.gone

/-- Every connection is in one place, the clients are adopted in the order in which their handshakes ended, and when
nothing is left to be done nobody waits. -/
structure HandsOn : Prop where
  once : l.numbers ~ List.range l.connections
  inOrder : (l.adopted ++ l.waitingClients).map WaitingClient.number <+ l.ready
  kept : ∀ n ∈ l.ready, n ∈ (l.adopted ++ l.waitingClients).map WaitingClient.number ∨ n ∈ l.gone
  thrown : l.thrown = false
  settled : l.Quiet →
    (l.plaintext = true → l.clientSockets = []) ∧ l.newClients = [] ∧ l.waitingClients = [] ∧
      ∀ c ∈ l.adopted, c.proxy.listens = true

section Unknown

open ClientProxyUnknown

/-- What holds of a client that the listener does not know yet: it will be decided, and it is heard if its proxy is
disconnected. -/
structure Open (u : ClientProxyUnknown) : Prop where
  alive : u.alive = true
  stream : u.streamHandlers = true → u.stream.isSome = true ∧ u.proxy = none
  handlers : u.proxyHandlers = u.proxy.isSome
  ready : u.ready = true → u.proxy.isSome = true
  listens : ∀ p ∈ u.proxy, p.listens = false → .clientProxyDisconnected ∈ u.queue
  decided : u.timer = true ∨ .clientProxyUnknownSuccess ∈ u.queue ∨ .clientProxyUnknownFailure ∈ u.queue

variable {u t : ClientProxyUnknown}

lemma new_open (stream : Stream) : Open (.new stream) where
  alive := rfl
  stream _ := ⟨rfl, rfl⟩
  handlers := rfl
  ready h := absurd h Bool.false_ne_true
  listens _ hp := absurd hp (Option.not_mem_none _)
  decided := .inl rfl

lemma sendFailure_open (halive : u.alive = true) (hstream : u.streamHandlers = true → u.stream.isSome = true) :
    Open u.sendFailure where
  alive := halive
  stream h := by
    obtain ⟨hhandlers, hnone⟩ := (Bool.and_eq_true _ _).mp h
    have hsome : u.deleteProxy.stream.isSome = true := hstream hhandlers
    rw [Option.isNone_iff_eq_none.mp hnone] at hsome
    exact absurd hsome Bool.false_ne_true
  handlers := rfl
  ready h := absurd h Bool.false_ne_true
  listens _ hp := absurd hp (Option.not_mem_none _)
  decided := .inr (.inr (List.mem_append_right _ (List.mem_singleton_self _)))

lemma Open.sendFailure (h : Open u) : Open u.sendFailure := sendFailure_open h.alive fun hu => (h.stream hu).1

lemma Open.handleData (h : Open u) (hu : u.streamHandlers = true) {stream : Stream}
    (hstored : stream.buffer.stored < 2 ^ 32)
    (ht : { u with stream := u.stream.map fun _ => stream }.handleData = some t) : Open t := by
  obtain ⟨hsome, hproxy⟩ := h.stream hu
  obtain ⟨old, hold⟩ := Option.isSome_iff_exists.mp hsome
  have hstream : { u with stream := u.stream.map fun _ => stream }.stream = some stream := by simp [hold]
  have hreceived := received hstream hstored
  rw [ht] at hreceived
  cases hreceived with
  | bad source => exact sendFailure_open h.alive fun _ => rfl
  | invalid source => exact sendFailure_open h.alive fun _ => rfl
  | supported bytes name =>
    exact {
      alive := h.alive
      stream := fun hfalse => absurd hfalse Bool.false_ne_true
      handlers := rfl
      ready := fun _ => rfl
      listens := fun p hp hlistens => by
        obtain rfl := Option.mem_some_iff.mp hp
        exact absurd hlistens (Bool.false_ne_true ∘ Eq.symm)
      decided := h.decided }

lemma Open.drop (h : Open u) {e : HandshakeEvent} {es : List HandshakeEvent} (hqueue : u.queue = e :: es)
    (hlistens : ∀ p ∈ u.proxy, p.listens = false → e ≠ .clientProxyDisconnected)
    (hsuccess : e ≠ .clientProxyUnknownSuccess) (hfailure : e ≠ .clientProxyUnknownFailure) :
    Open { u with queue := es } where
  alive := h.alive
  stream := h.stream
  handlers := h.handlers
  ready := h.ready
  listens p hp hlost := by
    have hmem := h.listens p hp hlost
    rw [hqueue] at hmem
    exact List.mem_of_ne_of_mem (hlistens p hp hlost).symm hmem
  decided := by
    have hdecided := h.decided
    rw [hqueue] at hdecided
    exact hdecided.imp_right fun hend =>
      hend.imp (List.mem_of_ne_of_mem hsuccess.symm) (List.mem_of_ne_of_mem hfailure.symm)

lemma Open.sendSuccess (h : Open u) (hproxy : u.proxy.isSome = true) : Open u.sendSuccess where
  alive := h.alive
  stream := h.stream
  handlers := h.handlers
  ready _ := hproxy
  listens p hp hlost := List.mem_append_left _ (h.listens p hp hlost)
  decided := .inr (.inl (List.mem_append_right _ (List.mem_singleton_self _)))

lemma Open.withProxy (h : Open u) {p q : ClientProxy} (hproxy : u.proxy = some p) {e : HandshakeEvent}
    (hlistens : q.listens = false → p.listens = false ∨ e = .clientProxyDisconnected) :
    Open { u with proxy := some q, queue := u.queue ++ [e] } where
  alive := h.alive
  stream hu := absurd (hproxy.symm.trans (h.stream hu).2) (Option.some_ne_none _)
  handlers := h.handlers.trans (by rw [hproxy]; rfl)
  ready _ := rfl
  listens q' hq' hlost := by
    obtain rfl := Option.mem_some_iff.mp hq'
    rcases hlistens hlost with hp | rfl
    · exact List.mem_append_left _ (h.listens p hproxy hp)
    · exact List.mem_append_right _ (List.mem_singleton_self _)
  decided := h.decided.imp_right fun hend => hend.imp (List.mem_append_left _) (List.mem_append_left _)

def Ends (e : UnknownStep) (u : ClientProxyUnknown) : Prop :=
  e = .dispatch ∧ (u.queue.head? = some .clientProxyUnknownSuccess ∨ u.queue.head? = some .clientProxyUnknownFailure)

lemma Open.dispatch (h : Open u) (hends : ¬Ends .dispatch u) (ht : u.next .dispatch = some t) : Open t := by
  rw [ClientProxyUnknown.next] at ht
  cases hqueue : u.queue with
  | nil =>
    rw [hqueue] at ht
    exact Option.some.inj ht ▸ h
  | cons e es =>
    rw [hqueue] at ht
    obtain rfl := Option.some.inj ht
    have hfirst : u.queue.head? = some e := by rw [hqueue]; rfl
    cases e with
    | clientProxyReady =>
      have hdropped := h.drop hqueue (fun _ _ _ => by decide) (by decide) (by decide)
      by_cases hhandlers : u.proxyHandlers = true
      · simpa [ClientProxyUnknown.dispatch, hhandlers] using hdropped.sendSuccess (h.handlers.symm.trans hhandlers)
      · simpa [ClientProxyUnknown.dispatch, hhandlers] using hdropped
    | clientProxyDisconnected =>
      by_cases hhandlers : u.proxyHandlers = true
      · simpa [ClientProxyUnknown.dispatch, hhandlers] using
          sendFailure_open (u := { u with queue := es }) h.alive fun hu => (h.stream hu).1
      · have hproxy : u.proxy = none := by
          rw [← Option.not_isSome_iff_eq_none, ← h.handlers]
          exact hhandlers
        have hdropped := h.drop hqueue (fun p hp => absurd hp (by simp [hproxy])) (by decide) (by decide)
        simpa [ClientProxyUnknown.dispatch, hhandlers] using hdropped
    | clientProxyUnknownSuccess => exact absurd ⟨rfl, .inl hfirst⟩ hends
    | clientProxyUnknownFailure => exact absurd ⟨rfl, .inr hfirst⟩ hends

lemma Open.next (h : Open u) {e : UnknownStep} (hends : ¬Ends e u) (ht : u.next e = some t) : Open t := by
  cases e with
  | inputReady stream hstored =>
    rw [ClientProxyUnknown.next] at ht
    split_ifs at ht with hu
    · exact h.handleData hu hstored ht
    · exact Option.some.inj ht ▸ h
  | writeError | disconnect | timeout =>
    obtain rfl := Option.some.inj ht
    split_ifs
    · exact h.sendFailure
    · exact h
  | info =>
    obtain rfl := Option.some.inj ht
    cases hproxy : u.proxy with
    | none => exact h
    | some p =>
      dsimp only
      split_ifs
      · exact h.withProxy hproxy fun hlost => .inl hlost
      · exact h
  | proxyDisconnect =>
    obtain rfl := Option.some.inj ht
    cases hproxy : u.proxy with
    | none => exact h
    | some p =>
      dsimp only
      split_ifs
      · exact h.withProxy hproxy fun _ => .inr rfl
      · exact h
  | dispatch => exact h.dispatch hends ht

end Unknown

section Run

variable {l m : ClientListener}

lemma perm_eraseP {α : Type} {p : α → Bool} {cs : List α} {c : α} (h : cs.find? p = some c) : cs ~ c :: cs.eraseP p := by
  induction cs with
  | nil => contradiction
  | cons d ds ih =>
    by_cases hd : p d = true
    · rw [List.find?_cons_of_pos hd] at h
      obtain rfl := Option.some.inj h
      rw [List.eraseP_cons_of_pos hd]
    · rw [List.find?_cons_of_neg hd] at h
      rw [List.eraseP_cons_of_neg hd]
      exact ((ih h).cons d).trans (.swap c d _)

lemma find_number {α : Type} {number : α → ℕ} {cs : List α} {n : ℕ} {c : α}
    (h : cs.find? (fun c => decide (number c = n)) = some c) : c ∈ cs ∧ number c = n :=
  ⟨List.mem_of_find?_eq_some h, by simpa using List.find?_some h⟩

lemma once_iff : l.numbers ~ List.range l.connections ↔
    ∀ n, l.clientSockets.count n + (l.newClients.map NewClient.number).count n +
      (l.waitingClients.map WaitingClient.number).count n + (l.adopted.map WaitingClient.number).count n +
        l.gone.count n = (List.range l.connections).count n := by
  simp only [numbers, List.perm_iff_count, List.count_append]

structure Inv (l : ClientListener) : Prop where
  once : l.numbers ~ List.range l.connections
  inOrder : (l.adopted ++ l.waitingClients).map WaitingClient.number <+ l.ready
  kept : ∀ n ∈ l.ready, n ∈ (l.adopted ++ l.waitingClients).map WaitingClient.number ∨ n ∈ l.gone
  thrown : l.thrown = false
  accepted : ∀ n, l.queue.count (.clientListenerAccepted n) ≤ l.clientSockets.count n
  plain : l.plaintext = true → ∀ n ∈ l.clientSockets, .clientListenerAccepted n ∈ l.queue
  connected : l.waitingClients.length ≤ l.queue.count .clientListenerConnected
  unknowns : ∀ c ∈ l.newClients, Open c.unknown
  clients : ∀ c ∈ l.waitingClients ++ l.adopted, c.proxy.listens = false → .clientProxyDisconnected ∈ c.queue

lemma Inv.sockets_nodup (h : l.Inv) : l.clientSockets.Nodup := by
  have hnodup : l.numbers.Nodup := h.once.nodup_iff.mpr List.nodup_range
  simp only [numbers, List.nodup_append] at hnodup
  exact hnodup.1.1.1.1

lemma listening_inv (plaintext : Bool) : (listening plaintext).Inv where
  once := .nil
  inOrder := .slnil
  kept _ hn := absurd hn List.not_mem_nil
  thrown := rfl
  accepted _ := le_rfl
  plain _ _ hn := absurd hn List.not_mem_nil
  connected := le_rfl
  unknowns _ hc := absurd hc List.not_mem_nil
  clients _ hc := absurd hc List.not_mem_nil

lemma Inv.connecting (h : l.Inv) : (l.handleClientConnecting true).Inv where
  once := by
    rw [once_iff]
    intro n
    have honce := once_iff.mp h.once n
    simp only [handleClientConnecting, if_true, List.count_append, List.range_succ] at honce ⊢
    omega
  inOrder := h.inOrder
  kept := h.kept
  thrown := h.thrown
  accepted n := by
    have haccepted := h.accepted n
    simp only [handleClientConnecting, if_true, List.count_append]
    split_ifs
    · simp only [List.count_append, List.count_singleton, beq_iff_eq, ListenerEvent.clientListenerAccepted.injEq]
      omega
    · omega
  plain hplain n hn := by
    have hplaintext : l.plaintext = true := hplain
    simp only [handleClientConnecting, if_true, hplaintext, List.mem_append, List.mem_singleton] at hn ⊢
    exact hn.imp (h.plain hplain n) (congrArg _)
  connected := by
    have hconnected := h.connected
    simp only [handleClientConnecting, if_true]
    split_ifs
    · rw [List.count_append]
      omega
    · exact hconnected
  unknowns := h.unknowns
  clients := h.clients

lemma Inv.post (h : l.Inv) {n : ℕ} (hn : n ∈ l.clientSockets) (hnew : ListenerEvent.clientListenerAccepted n ∉ l.queue) :
    { l with queue := l.queue ++ [ListenerEvent.clientListenerAccepted n] }.Inv where
  once := h.once
  inOrder := h.inOrder
  kept := h.kept
  thrown := h.thrown
  accepted k := by
    have haccepted := h.accepted k
    by_cases hk : n = k
    · subst hk
      have hzero := List.count_eq_zero.mpr hnew
      have hpos := List.count_pos_iff.mpr hn
      rw [List.count_append, hzero, List.count_singleton_self]
      exact (Nat.zero_add 1).le.trans hpos
    · simpa [List.count_append, List.count_singleton, hk] using haccepted
  plain hplain k hk := List.mem_append_left _ (h.plain hplain k hk)
  connected := by
    have hconnected := h.connected
    simp only [List.count_append]
    omega
  unknowns := h.unknowns
  clients := h.clients

lemma Inv.handleAccepted (h : l.Inv) {n : ℕ} {es : List ListenerEvent}
    (hqueue : l.queue = .clientListenerAccepted n :: es) : ({ l with queue := es }.handleClientAccepted n).Inv := by
  have haccepted := h.accepted
  have hplain := h.plain
  have hconnected := h.connected
  rw [hqueue] at haccepted hplain hconnected
  have hmem : n ∈ l.clientSockets := by
    have hn := haccepted n
    rw [List.count_cons_self] at hn
    exact List.count_pos_iff.mp (by omega)
  rw [handleClientAccepted, if_pos hmem]
  exact {
    once := by
      rw [once_iff]
      intro k
      have honce := once_iff.mp h.once k
      have hperm := (List.perm_cons_erase hmem).count_eq k
      simp only [List.map_append, List.count_append, List.count_cons, List.map_cons, List.map_nil, List.count_nil] at hperm ⊢
      omega
    inOrder := h.inOrder
    kept := h.kept
    thrown := h.thrown
    accepted := fun k => by
      have hk := haccepted k
      rw [List.count_cons] at hk
      rw [List.count_erase]
      by_cases hnk : n = k
      · subst hnk
        simp only [beq_self_eq_true, if_true] at hk ⊢
        omega
      · simpa [hnk] using hk
    plain := fun hp k hk => by
      have hne : k ≠ n := fun heq => h.sockets_nodup.not_mem_erase (heq ▸ hk)
      exact List.mem_of_ne_of_mem (by simpa using hne) (hplain hp k (List.mem_of_mem_erase hk))
    connected := by simpa using hconnected
    unknowns := fun c hc => by
      rcases List.mem_append.mp hc with hc | hc
      · exact h.unknowns c hc
      · obtain rfl := List.mem_singleton.mp hc
        exact new_open .new
    clients := h.clients }

lemma handleClientConnected_nil (h : l.waitingClients = []) : l.handleClientConnected = l := by
  simp [handleClientConnected, getNextClient, h]

lemma handleClientConnected_cons {c : WaitingClient} {cs : List WaitingClient} (h : l.waitingClients = c :: cs) :
    l.handleClientConnected = { l with waitingClients := cs, adopted := l.adopted ++ [c] } := by
  simp [handleClientConnected, getNextClient, h]

lemma Inv.handleConnected (h : l.Inv) {es : List ListenerEvent} (hqueue : l.queue = .clientListenerConnected :: es) :
    { l with queue := es }.handleClientConnected.Inv := by
  have haccepted := h.accepted
  have hplain := h.plain
  have hconnected := h.connected
  rw [hqueue] at haccepted hplain hconnected
  have haccepted' (n : ℕ) : es.count (.clientListenerAccepted n) ≤ l.clientSockets.count n := by simpa using haccepted n
  have hplain' (hp : l.plaintext = true) (n : ℕ) (hn : n ∈ l.clientSockets) : .clientListenerAccepted n ∈ es :=
    List.mem_of_ne_of_mem (by simp) (hplain hp n hn)
  rw [List.count_cons_self] at hconnected
  obtain hwaiting | ⟨c, cs, hwaiting⟩ : l.waitingClients = [] ∨ ∃ c cs, l.waitingClients = c :: cs := by
    cases l.waitingClients <;> simp
  · rw [handleClientConnected_nil (l := { l with queue := es }) hwaiting]
    exact { h with
      accepted := haccepted'
      plain := hplain'
      connected := by simp [hwaiting] }
  · rw [handleClientConnected_cons (l := { l with queue := es }) hwaiting]
    have honce := once_iff.mp h.once
    have hinOrder := h.inOrder
    have hkept := h.kept
    have hclients := h.clients
    rw [hwaiting] at honce hconnected hinOrder hkept hclients
    exact {
      once := by
        rw [once_iff]
        intro n
        have hn := honce n
        simp only [List.map_append, List.map_cons, List.map_nil, List.count_append, List.count_cons, List.count_nil] at hn ⊢
        omega
      inOrder := by simpa using hinOrder
      kept := by simpa using hkept
      thrown := h.thrown
      accepted := haccepted'
      plain := hplain'
      connected := by
        rw [List.length_cons] at hconnected
        exact Nat.le_of_succ_le_succ hconnected
      unknowns := h.unknowns
      clients := fun d hd => hclients d (by simp at hd ⊢; tauto) }

lemma Inv.setUnknown (h : l.Inv) {n : ℕ} {u : ClientProxyUnknown} (hu : Open u) : (l.setUnknown n u).Inv where
  once := by
    have hnumbers : (l.setUnknown n u).newClients.map NewClient.number = l.newClients.map NewClient.number := by
      rw [ClientListener.setUnknown, List.map_map]
      apply List.map_congr_left
      intro c _
      simp only [Function.comp_apply]
      split_ifs <;> rfl
    rw [numbers, hnumbers]
    exact h.once
  inOrder := h.inOrder
  kept := h.kept
  thrown := h.thrown
  accepted := h.accepted
  plain := h.plain
  connected := h.connected
  unknowns c hc := by
    obtain ⟨d, hd, rfl⟩ := List.mem_map.mp hc
    split_ifs
    · exact hu
    · exact h.unknowns d hd
  clients := h.clients

lemma handleUnknownClient_refused {n : ℕ} {u : ClientProxyUnknown} (h : u.ready = false) :
    l.handleUnknownClient ⟨n, u⟩ =
      { l with newClients := l.newClients.eraseP fun d => d.number = n, gone := l.gone ++ [n] } := by
  simp [handleUnknownClient, ClientProxyUnknown.orphanClientProxy, h]

lemma handleUnknownClient_welcomed {n : ℕ} {u : ClientProxyUnknown} {p : ClientProxy} (h : u.ready = true)
    (hproxy : u.proxy = some p) : l.handleUnknownClient ⟨n, u⟩ =
    { l with
      newClients := l.newClients.eraseP fun d => d.number = n
      waitingClients := l.waitingClients ++ [⟨n, p, u.queue⟩]
      queue := l.queue ++ [.clientListenerConnected]
      ready := l.ready ++ [n] } := by
  simp [handleUnknownClient, ClientProxyUnknown.orphanClientProxy, h, hproxy]

lemma Inv.handleUnknown (h : l.Inv) {c : NewClient} (hfind : l.newClient c.number = some c)
    {e : HandshakeEvent} {es : List HandshakeEvent} (hqueue : c.unknown.queue = e :: es)
    (he : e ≠ .clientProxyDisconnected) :
    (l.handleUnknownClient { c with unknown := { c.unknown with queue := es } }).Inv := by
  have hopen := h.unknowns c (find_number hfind).1
  have hperm := (perm_eraseP hfind).map NewClient.number
  have honce := once_iff.mp h.once
  have hunknowns : ∀ d ∈ l.newClients.eraseP fun d => d.number = c.number, Open d.unknown :=
    fun d hd => h.unknowns d (List.mem_of_mem_eraseP hd)
  cases hready : c.unknown.ready with
  | false =>
    rw [handleUnknownClient_refused (u := { c.unknown with queue := es }) hready]
    exact { h with
      once := by
        rw [once_iff]
        intro n
        have hn := honce n
        have hcount := hperm.count_eq n
        simp only [List.count_append, List.map_cons, List.count_cons, List.count_nil] at hcount ⊢
        omega
      kept := fun n hn => (h.kept n hn).imp_right (List.mem_append_left _)
      unknowns := hunknowns }
  | true =>
    obtain ⟨p, hproxy⟩ := Option.isSome_iff_exists.mp (hopen.ready hready)
    rw [handleUnknownClient_welcomed (u := { c.unknown with queue := es }) hready hproxy]
    exact {
      once := by
        rw [once_iff]
        intro n
        have hn := honce n
        have hcount := hperm.count_eq n
        simp only [List.map_append, List.count_append, List.map_cons, List.map_nil, List.count_cons, List.count_nil] at hcount ⊢
        omega
      inOrder := by
        rw [← List.append_assoc, List.map_append]
        exact h.inOrder.append (List.Sublist.refl _)
      kept := fun n hn => by
        rcases List.mem_append.mp hn with hn | hn
        · rw [← List.append_assoc, List.map_append]
          exact (h.kept n hn).imp_left (List.mem_append_left _)
        · rw [← List.append_assoc, List.map_append]
          exact .inl (List.mem_append_right _ hn)
      thrown := h.thrown
      accepted := fun n => by simpa [List.count_append, List.count_singleton] using h.accepted n
      plain := fun hp n hn => List.mem_append_left _ (h.plain hp n hn)
      connected := by
        have hconnected := h.connected
        simp only [List.length_append, List.length_singleton, List.count_append, List.count_singleton_self]
        omega
      unknowns := hunknowns
      clients := fun d hd => by
        rw [List.append_assoc, List.mem_append] at hd
        rcases hd with hd | hd
        · exact h.clients d (List.mem_append_left _ hd)
        · rcases List.mem_cons.mp hd with rfl | hd
          · intro hlost
            have hmem := hopen.listens p hproxy hlost
            rw [hqueue] at hmem
            exact List.mem_of_ne_of_mem he.symm hmem
          · exact h.clients d (List.mem_append_right _ hd) }

lemma Inv.drop (h : l.Inv) {n : ℕ} {waiting adopted : List WaitingClient}
    (hperm : (l.waitingClients ++ l.adopted).map WaitingClient.number ~ n :: (waiting ++ adopted).map WaitingClient.number)
    (hwaiting : waiting <+ l.waitingClients) (hadopted : adopted <+ l.adopted) :
    { l with waitingClients := waiting, adopted := adopted, gone := l.gone ++ [n] }.Inv where
  once := by
    rw [once_iff]
    intro k
    have hk := once_iff.mp h.once k
    have hcount := hperm.count_eq k
    simp only [List.map_append, List.count_append, List.count_cons, List.count_nil] at hcount ⊢
    omega
  inOrder := ((hadopted.append hwaiting).map _).trans h.inOrder
  kept k hk := by
    have hkept := h.kept k hk
    have hmem := hperm.mem_iff (a := k)
    simp only [List.map_append, List.mem_append, List.mem_cons, List.not_mem_nil, or_false] at hkept hmem ⊢
    tauto
  thrown := h.thrown
  accepted := h.accepted
  plain := h.plain
  connected := hwaiting.length_le.trans h.connected
  unknowns := h.unknowns
  clients c hc := h.clients c ((hwaiting.append hadopted).subset hc)

lemma Inv.dropWaiting (h : l.Inv) {c : WaitingClient} {n : ℕ}
    (hfind : l.waitingClients.find? (fun c => c.number = n) = some c) : (l.handleWaitingDisconnected n).Inv := by
  obtain ⟨-, rfl⟩ := find_number hfind
  refine h.drop ?_ List.eraseP_sublist (List.Sublist.refl _)
  exact ((perm_eraseP hfind).append_right _).map _

lemma Inv.dropAdopted (h : l.Inv) {c : WaitingClient} {n : ℕ}
    (hfind : l.adopted.find? (fun c => c.number = n) = some c) : (l.handleAdoptedDisconnected n).Inv := by
  obtain ⟨-, rfl⟩ := find_number hfind
  refine h.drop ?_ (List.Sublist.refl _) List.eraseP_sublist
  exact (((perm_eraseP hfind).append_left _).trans List.perm_middle).map _

lemma Inv.kept_clients (h : l.Inv) {waiting adopted : List WaitingClient}
    (hwaiting : waiting.map WaitingClient.number = l.waitingClients.map WaitingClient.number)
    (hadopted : adopted.map WaitingClient.number = l.adopted.map WaitingClient.number)
    (hclients : ∀ c ∈ waiting ++ adopted, c.proxy.listens = false → .clientProxyDisconnected ∈ c.queue) :
    { l with waitingClients := waiting, adopted := adopted }.Inv where
  once := by
    rw [numbers, hwaiting, hadopted]
    exact h.once
  inOrder := by
    rw [List.map_append, hwaiting, hadopted, ← List.map_append]
    exact h.inOrder
  kept := by
    rw [List.map_append, hwaiting, hadopted, ← List.map_append]
    exact h.kept
  thrown := h.thrown
  accepted := h.accepted
  plain := h.plain
  connected := by
    have hlength := congrArg List.length hwaiting
    rw [List.length_map, List.length_map] at hlength
    exact hlength.le.trans h.connected
  unknowns := h.unknowns
  clients := hclients

lemma map_number {f : WaitingClient → WaitingClient} (hf : ∀ c, (f c).number = c.number) (cs : List WaitingClient) :
    (cs.map f).map WaitingClient.number = cs.map WaitingClient.number := by
  rw [List.map_map]
  exact List.map_congr_left fun c _ => hf c

def Heard (c : WaitingClient) : Prop := c.proxy.listens = false → .clientProxyDisconnected ∈ c.queue

lemma Inv.mapClients (h : l.Inv) {f g : WaitingClient → WaitingClient} (hf : ∀ c, (f c).number = c.number)
    (hg : ∀ c, (g c).number = c.number) (hfheard : ∀ c ∈ l.waitingClients, Heard (f c))
    (hgheard : ∀ c ∈ l.adopted, Heard (g c)) :
    { l with waitingClients := l.waitingClients.map f, adopted := l.adopted.map g }.Inv := by
  refine h.kept_clients (map_number hf _) (map_number hg _) fun c hc => ?_
  rcases List.mem_append.mp hc with hc | hc
  · obtain ⟨d, hd, rfl⟩ := List.mem_map.mp hc
    exact hfheard d hd
  · obtain ⟨d, hd, rfl⟩ := List.mem_map.mp hc
    exact hgheard d hd

lemma Inv.heard_waiting (h : l.Inv) : ∀ c ∈ l.waitingClients, Heard c :=
  fun c hc => h.clients c (List.mem_append_left _ hc)

lemma Inv.heard_adopted (h : l.Inv) : ∀ c ∈ l.adopted, Heard c := fun c hc => h.clients c (List.mem_append_right _ hc)

lemma Heard.disconnect {c : WaitingClient} (h : Heard c) : Heard c.disconnect := by
  rw [WaitingClient.disconnect]
  split_ifs
  · exact fun _ => List.mem_append_right _ (List.mem_singleton_self _)
  · exact h

lemma Heard.pass {c : WaitingClient} (h : Heard c) {e : HandshakeEvent} {es : List HandshakeEvent}
    (hqueue : c.queue = e :: es) (he : e ≠ .clientProxyDisconnected) : Heard { c with queue := es } := by
  intro hlost
  have hmem := h hlost
  rw [hqueue] at hmem
  exact List.mem_of_ne_of_mem he.symm hmem

def disconnectIf (n : ℕ) (c : WaitingClient) : WaitingClient := if c.number = n then c.disconnect else c

lemma Inv.disconnect (h : l.Inv) (n : ℕ) :
    { l with
      waitingClients := l.waitingClients.map (disconnectIf n)
      adopted := l.adopted.map (disconnectIf n) }.Inv := by
  have hnumber (c : WaitingClient) : (disconnectIf n c).number = c.number := by
    rw [disconnectIf, WaitingClient.disconnect]
    split_ifs <;> rfl
  have hheard {c : WaitingClient} (hc : Heard c) : Heard (disconnectIf n c) := by
    rw [disconnectIf]
    split_ifs
    · exact hc.disconnect
    · exact hc
  exact h.mapClients hnumber hnumber (fun c hc => hheard (h.heard_waiting c hc)) fun c hc => hheard (h.heard_adopted c hc)

lemma setClient_number (c d : WaitingClient) : (if d.number = c.number then c else d).number = d.number := by
  split_ifs with heq
  · exact heq.symm
  · rfl

lemma Inv.dispatchWaiting (h : l.Inv) {n : ℕ} {c : WaitingClient}
    (hfind : l.waitingClients.find? (fun c => c.number = n) = some c) (hnext : l.dispatchWaiting c = some m) : m.Inv := by
  obtain ⟨hmem, rfl⟩ := find_number hfind
  have hpassed {e : HandshakeEvent} {es : List HandshakeEvent} (hqueue : c.queue = e :: es)
      (he : e ≠ .clientProxyDisconnected) :
      { l with waitingClients := setClient { c with queue := es } l.waitingClients }.Inv := by
    have hmapped := h.mapClients (setClient_number { c with queue := es }) (g := id) (fun _ => rfl)
      (fun d hd => by
        split_ifs
        · exact (h.heard_waiting c hmem).pass hqueue he
        · exact h.heard_waiting d hd)
      h.heard_adopted
    rw [List.map_id] at hmapped
    exact hmapped
  rw [ClientListener.dispatchWaiting] at hnext
  split at hnext
  · contradiction
  · exact Option.some.inj hnext ▸ h.dropWaiting hfind
  · next e es hne hqueue =>
    exact Option.some.inj hnext ▸ hpassed hqueue hne

lemma Inv.dispatchAdopted (h : l.Inv) {n : ℕ} {c : WaitingClient}
    (hfind : l.adopted.find? (fun c => c.number = n) = some c) (hnext : l.dispatchAdopted c = some m) : m.Inv := by
  obtain ⟨hmem, rfl⟩ := find_number hfind
  have hpassed {e : HandshakeEvent} {es : List HandshakeEvent} (hqueue : c.queue = e :: es)
      (he : e ≠ .clientProxyDisconnected) : { l with adopted := setClient { c with queue := es } l.adopted }.Inv := by
    have hmapped := h.mapClients (f := id) (fun _ => rfl) (setClient_number { c with queue := es }) h.heard_waiting
      fun d hd => by
        split_ifs
        · exact (h.heard_adopted c hmem).pass hqueue he
        · exact h.heard_adopted d hd
    rw [List.map_id] at hmapped
    exact hmapped
  rw [ClientListener.dispatchAdopted] at hnext
  split at hnext
  · contradiction
  · exact Option.some.inj hnext ▸ h.dropAdopted hfind
  · next e es hne hqueue =>
    exact Option.some.inj hnext ▸ hpassed hqueue hne

lemma Inv.dispatchTo (h : l.Inv) {n : ℕ} (hnext : l.dispatchTo n = some m) : m.Inv := by
  rw [ClientListener.dispatchTo] at hnext
  cases hwaiting : l.waitingClients.find? fun c => c.number = n with
  | some c =>
    rw [hwaiting] at hnext
    exact h.dispatchWaiting hwaiting hnext
  | none =>
    rw [hwaiting] at hnext
    obtain ⟨c, hadopted, hgoes⟩ := Option.bind_eq_some_iff.mp hnext
    exact h.dispatchAdopted hadopted hgoes

lemma Inv.stepUnknown (h : l.Inv) {n : ℕ} {e : ClientProxyUnknown.UnknownStep} (hnext : l.stepUnknown n e = some m) :
    m.Inv := by
  obtain ⟨c, hfind, hstep⟩ := Option.bind_eq_some_iff.mp hnext
  obtain ⟨hmem, rfl⟩ := find_number hfind
  have hopen := h.unknowns c hmem
  have hgo (hends : ¬Ends e c.unknown) (hgoes : (c.unknown.next e).map (l.setUnknown c.number) = some m) : m.Inv := by
    obtain ⟨t, ht, rfl⟩ := Option.map_eq_some_iff.mp hgoes
    exact h.setUnknown (hopen.next hends ht)
  split at hstep
  · next es hqueue =>
    exact Option.some.inj hstep ▸ h.handleUnknown hfind hqueue (by decide)
  · next es hqueue =>
    exact Option.some.inj hstep ▸ h.handleUnknown hfind hqueue (by decide)
  · next hsuccess hfailure =>
    refine hgo (fun ⟨he, hhead⟩ => ?_) hstep
    subst he
    rcases hhead with hhead | hhead
    · obtain ⟨es, hes⟩ := List.head?_eq_some_iff.mp hhead
      exact hsuccess es rfl hes
    · obtain ⟨es, hes⟩ := List.head?_eq_some_iff.mp hhead
      exact hfailure es rfl hes

lemma Inv.next (h : l.Inv) {e : ListenerStep} (hnext : l.next e = some m) : m.Inv := by
  cases e with
  | connecting socket =>
    obtain rfl := Option.some.inj hnext
    cases socket with
    | false => exact h
    | true => exact h.connecting
  | secureAccepted n =>
    rw [ClientListener.next] at hnext
    split_ifs at hnext with hn
    exact Option.some.inj hnext ▸ h.post hn.1 hn.2
  | dispatch =>
    rw [ClientListener.next] at hnext
    cases hqueue : l.queue with
    | nil => simp [hqueue] at hnext
    | cons e es =>
      rw [hqueue] at hnext
      cases e with
      | clientListenerAccepted n => exact Option.some.inj hnext ▸ h.handleAccepted hqueue
      | clientListenerConnected => exact Option.some.inj hnext ▸ h.handleConnected hqueue
  | unknown n e => exact h.stepUnknown hnext
  | disconnect n => exact Option.some.inj hnext ▸ h.disconnect n
  | dispatchTo n => exact h.dispatchTo hnext
  | closeTimeout n =>
    obtain ⟨c, hfind, rfl⟩ := Option.map_eq_some_iff.mp hnext
    exact h.dropAdopted hfind

lemma Inv.settled (h : l.Inv) (hquiet : l.Quiet) :
    (l.plaintext = true → l.clientSockets = []) ∧ l.newClients = [] ∧ l.waitingClients = [] ∧
      ∀ c ∈ l.adopted, c.proxy.listens = true := by
  obtain ⟨hqueue, hnew, hclients⟩ := hquiet
  refine ⟨fun hplain => ?_, ?_, ?_, fun c hc => ?_⟩
  · refine List.eq_nil_iff_forall_not_mem.mpr fun n hn => ?_
    have hmem := h.plain hplain n hn
    rw [hqueue] at hmem
    exact List.not_mem_nil hmem
  · refine List.eq_nil_iff_forall_not_mem.mpr fun c hc => ?_
    obtain ⟨hempty, htimer⟩ := hnew c hc
    have hdecided := (h.unknowns c hc).decided
    simp [hempty, htimer] at hdecided
  · have hconnected := h.connected
    rw [hqueue, List.count_nil] at hconnected
    exact List.length_eq_zero_iff.mp (Nat.le_zero.mp hconnected)
  · rw [← Bool.not_eq_false]
    intro hlost
    have hmem := h.heard_adopted c hc hlost
    rw [hclients c (List.mem_append_right _ hc)] at hmem
    exact List.not_mem_nil hmem

/-- Whatever happens and in whatever order, no connection is lost or handed on twice, and no client waits for ever. -/
theorem hands_on {plaintext : Bool} {es : List ListenerStep} (hrun : runFrom next es (listening plaintext) = some l) :
    l.HandsOn := by
  have hinv : l.Inv := runFrom_invariant (fun _ _ _ h hnext => Inv.next h hnext) (listening_inv plaintext) hrun
  exact ⟨hinv.once, hinv.inOrder, hinv.kept, hinv.thrown, hinv.settled⟩

open ClientProxyUnknown in
/-- A client says hello as "a", is asked for its screen and tells it. Its connection is lost before the server takes it. -/
def welcomedSteps : List ListenerStep :=
  [.connecting true, .dispatch, .unknown 0 (.inputReady (PacketStreamFilter.afterOps [.inputReady
    [[0, 0, 0, 16, 66, 97, 114, 114, 105, 101, 114, 0, 1, 0, 6, 0, 0, 0, 1, 97]]]) (by decide)), .unknown 0 .info,
    .unknown 0 .dispatch, .unknown 0 .proxyDisconnect, .unknown 0 .dispatch, .dispatch]

theorem hands_on_welcomed : ∃ l, runFrom next welcomedSteps (listening true) = some l ∧ l.HandsOn ∧
    l.adopted.map WaitingClient.number = [0] := by
  have hadopted : (runFrom next welcomedSteps (listening true)).map (fun l => l.adopted.map WaitingClient.number) =
      some [0] := by decide
  obtain ⟨l, hl, hnumbers⟩ := Option.map_eq_some_iff.mp hadopted
  exact ⟨l, hl, hands_on hl, hnumbers⟩

end Run

end ClientListener

end InputLeap
