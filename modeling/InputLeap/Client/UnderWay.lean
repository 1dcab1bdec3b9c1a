import InputLeap.Client.Client

/-! What a client has under way. Whatever ends it adds an event. -/

namespace InputLeap

namespace Client

structure Together (c : Client) : Prop where
  stream_iff : c.stream = true ↔ c.timer = true ∨ c.server.isSome = true
  timer : c.timer = true → c.server = none
  connecting : c.connecting = true → c.timer = true
  hello : c.inputHandler = some .hello → c.timer = true ∧ c.connecting = false
  connection : c.connection = true → c.stream = true

structure Coherent (c : Client) : Prop extends Together c where
  suspended : c.suspended = true → c.stream = false

/-- The attempt at a connection ends in time, there is a session, or the screen resumes. -/
def Busy (c : Client) : Prop :=
  c.timer = true ∨ c.server.isSome = true ∨ c.suspended = true ∧ c.connectOnResume = true

def ClientEvent.Ends (e : ClientEvent) : Prop := e ≠ .connected

/-- The events are added to, and if nothing is under way any more, there is one that ends it. -/
def Goes (c d : Client) : Prop :=
  ∃ added, d.events = c.events ++ added ∧ (c.Busy → d.Busy ∨ ∃ e ∈ added, e.Ends)

variable {c d t : Client}

lemma new_coherent : new.Coherent where
  stream_iff := by simp [new]
  timer h := by simp [new] at h
  connecting h := by simp [new] at h
  hello h := by simp [new] at h
  connection h := by simp [new] at h
  suspended h := by simp [new] at h

structure Still (c d : Client) : Prop where
  stream : d.stream = c.stream
  connecting : d.connecting = c.connecting
  connection : d.connection = c.connection
  inputHandler : d.inputHandler = c.inputHandler
  timer : d.timer = c.timer
  server : d.server.isSome = c.server.isSome
  suspended : d.suspended = c.suspended
  connectOnResume : d.connectOnResume = c.connectOnResume
  events : ∃ added, d.events = c.events ++ added

lemma Still.refl (c : Client) : Still c c := ⟨rfl, rfl, rfl, rfl, rfl, rfl, rfl, rfl, [], (List.append_nil _).symm⟩

lemma Still.trans (h : Still c d) (h' : Still d t) : Still c t where
  stream := h'.stream.trans h.stream
  connecting := h'.connecting.trans h.connecting
  connection := h'.connection.trans h.connection
  inputHandler := h'.inputHandler.trans h.inputHandler
  timer := h'.timer.trans h.timer
  server := h'.server.trans h.server
  suspended := h'.suspended.trans h.suspended
  connectOnResume := h'.connectOnResume.trans h.connectOnResume
  events := by
    obtain ⟨added, hadded⟩ := h.events
    obtain ⟨more, hmore⟩ := h'.events
    exact ⟨added ++ more, by rw [hmore, hadded, List.append_assoc]⟩

lemma Still.coherent (h : Still c d) (hc : c.Coherent) : d.Coherent where
  stream_iff := by rw [h.stream, h.timer, h.server]; exact hc.stream_iff
  timer htimer := by
    have hnone := hc.timer (h.timer ▸ htimer)
    rw [← Option.not_isSome_iff_eq_none, h.server, hnone]
    exact Bool.false_ne_true
  connecting hconnecting := h.timer ▸ hc.connecting (h.connecting ▸ hconnecting)
  hello hhello := h.timer ▸ h.connecting ▸ hc.hello (h.inputHandler ▸ hhello)
  connection hconnection := h.stream ▸ hc.connection (h.connection ▸ hconnection)
  suspended hsuspended := h.stream ▸ hc.suspended (h.suspended ▸ hsuspended)

lemma Still.goes (h : Still c d) : Goes c d := by
  obtain ⟨added, hadded⟩ := h.events
  refine ⟨added, hadded, fun hbusy => .inl ?_⟩
  rwa [Busy, h.timer, h.server, h.suspended, h.connectOnResume]

structure Ended (c d : Client) : Prop where
  stream : d.stream = false
  connecting : d.connecting = false
  connection : d.connection = false
  inputHandler : d.inputHandler ≠ some .hello
  timer : d.timer = false
  server : d.server = none
  events : ∃ added, d.events = c.events ++ added ∧ ∃ e ∈ added, e.Ends

lemma Ended.coherent (h : Ended c d) : d.Coherent where
  stream_iff := by simp [h.stream, h.timer, h.server]
  timer _ := h.server
  connecting hconnecting := by simp [h.connecting] at hconnecting
  hello hhello := absurd hhello h.inputHandler
  connection hconnection := by simp [h.connection] at hconnection
  suspended _ := h.stream

lemma Ended.goes (h : Ended c d) : Goes c d := by
  obtain ⟨added, hadded, hends⟩ := h.events
  exact ⟨added, hadded, fun _ => .inr hends⟩

lemma Still.ended (h : Still c d) (h' : Ended d t) : Ended c t where
  stream := h'.stream
  connecting := h'.connecting
  connection := h'.connection
  inputHandler := h'.inputHandler
  timer := h'.timer
  server := h'.server
  events := by
    obtain ⟨added, hadded⟩ := h.events
    obtain ⟨more, hmore, e, he, hends⟩ := h'.events
    exact ⟨added ++ more, by rw [hmore, hadded, List.append_assoc], e, List.mem_append_right _ he, hends⟩

section Parts

lemma send_still (c : Client) (m : ClientMessage) : Still c (c.send m) := ⟨rfl, rfl, rfl, rfl, rfl, rfl, rfl, rfl, [], by simp [send]⟩

end Parts

section Steps

structure Cleaned (c : Client) : Prop where
  stream : c.stream = false
  connecting : c.connecting = false
  connection : c.connection = false
  inputHandler : c.inputHandler ≠ some .hello
  server : c.server = none

lemma cleanupStream_cleaned (h : c.server = none) : c.cleanupStream.Cleaned :=
  ⟨rfl, rfl, rfl, by simp [cleanupStream], h⟩

lemma Together.cleaned (hc : c.Together) (hstream : c.stream = false) : c.Cleaned := by
  have hidle : ¬(c.timer = true ∨ c.server.isSome = true) := fun h => by simp [hc.stream_iff.mpr h] at hstream
  have htimer := fun h => hidle (.inl h)
  refine ⟨hstream, ?_, ?_, fun hhello => htimer (hc.hello hhello).1, ?_⟩
  · exact Bool.eq_false_iff.mpr fun hconnecting => htimer (hc.connecting hconnecting)
  · exact Bool.eq_false_iff.mpr fun hconnection => by simp [hc.connection hconnection] at hstream
  · exact Option.not_isSome_iff_eq_none.mp fun h => hidle (.inr h)

lemma cleanupScreen_server (c : Client) : c.cleanupScreen.server = none ∧ c.cleanupScreen.stream = c.stream ∧
    c.cleanupScreen.timer = c.timer ∧ c.cleanupScreen.events = c.events := by
  rw [cleanupScreen]
  split_ifs with h
  · exact ⟨rfl, rfl, rfl, rfl⟩
  · exact ⟨Option.not_isSome_iff_eq_none.mp h, rfl, rfl, rfl⟩

lemma Cleaned.cleanupScreen (h : c.Cleaned) : c.cleanupScreen = c := by
  rw [Client.cleanupScreen, h.server]
  rfl

structure Alone (c d : Client) : Prop where
  server : d.server = none
  timer : d.timer = false
  events : d.events = c.events
  cleaned : d.stream = false → d.Cleaned

lemma Together.alone (hc : c.Together) : Alone c c.cleanupTimer.cleanupScreen := by
  obtain ⟨hserver, hstream, htimer, hevents⟩ := c.cleanupTimer.cleanupScreen_server
  refine ⟨hserver, htimer, hevents, fun hclosed => ?_⟩
  obtain ⟨_, hconnecting, hconnection, hhandler, hnone⟩ := hc.cleaned (hstream.symm.trans hclosed)
  have hcleaned : c.cleanupTimer.Cleaned := ⟨hstream.symm.trans hclosed, hconnecting, hconnection, hhandler, hnone⟩
  rwa [hcleaned.cleanupScreen]

lemma Alone.cleanupConnecting (h : Alone c d) : Alone c d.cleanupConnecting :=
  ⟨h.server, h.timer, h.events, fun hclosed => { h.cleaned hclosed with connecting := rfl }⟩

lemma Cleaned.ended {e : ClientEvent} (h : d.Cleaned) (htimer : d.timer = false) (hevents : d.events = c.events)
    (he : e.Ends) : Ended c (d.sendEvent e) where
  stream := h.stream
  connecting := h.connecting
  connection := h.connection
  inputHandler := h.inputHandler
  timer := htimer
  server := h.server
  events := ⟨[e], by rw [← hevents]; rfl, e, List.mem_singleton_self e, he⟩

lemma Alone.ended (h : Alone c d) {e : ClientEvent} (he : e.Ends) : Ended c (d.cleanupConnection.sendEvent e) := by
  rw [cleanupConnection]
  split_ifs with hstream
  · exact (cleanupStream_cleaned h.server).ended h.timer h.events he
  · exact (h.cleaned (Bool.eq_false_iff.mpr hstream)).ended h.timer h.events he

lemma disconnect_ended (hc : c.Together) (msg : Option String) : Ended c (c.disconnect msg) := by
  have hc' : Together { c with connectOnResume := false } :=
    ⟨hc.stream_iff, hc.timer, hc.connecting, hc.hello, hc.connection⟩
  obtain ⟨hserver, htimer, hevents, hcleaned⟩ := hc'.alone.cleanupConnecting
  have halone : Alone c { c with connectOnResume := false }.cleanupTimer.cleanupScreen.cleanupConnecting :=
    ⟨hserver, htimer, hevents, hcleaned⟩
  cases msg with
  | none => exact halone.ended (by simp [ClientEvent.Ends])
  | some msg => exact halone.ended (by simp [ClientEvent.Ends])

lemma handleDisconnected_ended (hc : c.Coherent) : Ended c c.handleDisconnected :=
  hc.alone.ended (by simp [ClientEvent.Ends])

lemma handleConnectionFailed_ended (hc : c.Coherent) (hconnecting : c.connecting = true) (what : String) :
    Ended c (c.handleConnectionFailed what) := by
  have hserver := hc.timer (hc.connecting hconnecting)
  exact (cleanupStream_cleaned (c := c.cleanupTimer.cleanupConnecting) hserver).ended rfl rfl (by simp [ClientEvent.Ends])

lemma handleConnectTimeout_ended (hc : c.Coherent) (htimer : c.timer = true) : Ended c c.handleConnectTimeout := by
  have hserver : c.cleanupTimer.cleanupConnecting.cleanupConnection.server = none := by
    rw [cleanupConnection]
    split_ifs <;> exact hc.timer htimer
  have hkept : c.cleanupTimer.cleanupConnecting.cleanupConnection.timer = false ∧
      c.cleanupTimer.cleanupConnecting.cleanupConnection.events = c.events := by
    rw [cleanupConnection]
    split_ifs <;> exact ⟨rfl, rfl⟩
  exact (cleanupStream_cleaned hserver).ended hkept.1 hkept.2 (by simp [ClientEvent.Ends])

lemma connect_goes (hc : c.Coherent) (failure : Option String) :
    (c.connect failure).Coherent ∧ ∃ added, (c.connect failure).events = c.events ++ added ∧
      ((c.connect failure).Busy ∨ ∃ e ∈ added, e.Ends) := by
  unfold connect
  split_ifs with hstream hsuspended
  · exact ⟨hc, [], (List.append_nil _).symm, .inl ((hc.stream_iff.mp hstream).imp_right .inl)⟩
  · exact ⟨⟨⟨hc.stream_iff, hc.timer, hc.connecting, hc.hello, hc.connection⟩, hc.suspended⟩, [],
      (List.append_nil _).symm, .inl (.inr (.inr ⟨hsuspended, rfl⟩))⟩
  · have hclosed := hc.cleaned (Bool.eq_false_iff.mpr hstream)
    cases failure with
    | some what =>
      have hended : Ended c (c.cleanupTimer.cleanupConnecting.cleanupStream.sendEvent (.connectionFailed what)) :=
        (cleanupStream_cleaned (c := c.cleanupTimer.cleanupConnecting) hclosed.server).ended rfl rfl
          (by simp [ClientEvent.Ends])
      obtain ⟨added, hadded, hends⟩ := hended.events
      exact ⟨hended.coherent, added, hadded, .inr hends⟩
    | none =>
      exact ⟨⟨⟨by simp, fun _ => hclosed.server, fun _ => rfl, fun hhello => absurd hhello hclosed.inputHandler,
        fun _ => rfl⟩, fun h => absurd h hsuspended⟩, [], (List.append_nil _).symm, .inl (.inl rfl)⟩

lemma handleConnected_goes (hc : c.Coherent) (hconnecting : c.connecting = true) :
    c.handleConnected.Coherent ∧ Goes c c.handleConnected := by
  have htimer := hc.connecting hconnecting
  have hstream := hc.stream_iff.mpr (.inl htimer)
  exact ⟨⟨⟨hc.stream_iff, hc.timer, by simp [handleConnected, cleanupConnecting], fun _ => ⟨htimer, rfl⟩,
    fun _ => hstream⟩, hc.suspended⟩, [], (List.append_nil _).symm, .inl⟩

lemma handleHello_goes (hc : c.Coherent) (hhello : c.inputHandler = some .hello) (version : Option (ℤ × ℤ)) :
    (c.handleHello version).Coherent ∧ Goes c (c.handleHello version) := by
  obtain ⟨htimer, hconnecting⟩ := hc.hello hhello
  have hstream := hc.stream_iff.mpr (.inl htimer)
  have hserver := hc.timer htimer
  have hrefused : ∀ what, Ended c ((c.sendEvent (.connectionFailed what)).cleanupTimer.cleanupConnection) := by
    intro what
    rw [cleanupConnection, if_pos (by exact hstream)]
    exact ⟨rfl, rfl, rfl, by simp [cleanupStream], rfl, hserver, [.connectionFailed what], rfl, by simp [ClientEvent.Ends]⟩
  cases version with
  | none => exact ⟨(hrefused _).coherent, (hrefused _).goes⟩
  | some version =>
    obtain ⟨major, minor⟩ := version
    rw [handleHello]
    dsimp only
    split_ifs
    · exact ⟨(hrefused _).coherent, (hrefused _).goes⟩
    · refine ⟨⟨⟨by simp [cleanupTimer, setupScreen, send, hstream], ?_, ?_, ?_, fun _ => hstream⟩, hc.suspended⟩, [],
        (List.append_nil _).symm, fun _ => .inl (.inr (.inl rfl))⟩
      · simp [cleanupTimer]
      · simp [cleanupTimer, setupScreen, send, hconnecting]
      · simp [cleanupTimer, setupScreen]

lemma setOptions_still (c : Client) (options : List OptionID) : Still c (c.setOptions options) := by
  rw [setOptions]
  split_ifs
  · exact .refl c
  · exact ⟨rfl, rfl, rfl, rfl, rfl, Option.isSome_map, rfl, rfl, [], (List.append_nil _).symm⟩

lemma resetOptions_still (c : Client) : Still c c.resetOptions :=
  ⟨rfl, rfl, rfl, rfl, rfl, Option.isSome_map, rfl, rfl, [], (List.append_nil _).symm⟩

lemma startUndimPoller_still (c : Client) (idle : Seconds) : Still c (c.startUndimPoller idle) := by
  rw [startUndimPoller]
  split_ifs <;> exact ⟨rfl, rfl, rfl, rfl, rfl, rfl, rfl, rfl, [], (List.append_nil _).symm⟩

lemma forkDimScreen_still (c : Client) (dim : Bool) (now idle : Seconds) : Still c (c.forkDimScreen dim now idle) := by
  have hplain : ∀ d : Client, Still c d → Still c { d with isDimmed := dim } := fun d h =>
    ⟨h.stream, h.connecting, h.connection, h.inputHandler, h.timer, h.server, h.suspended, h.connectOnResume, h.events⟩
  rw [forkDimScreen]
  apply hplain
  split_ifs
  · apply Still.trans _ (startUndimPoller_still _ idle)
    exact ⟨rfl, rfl, rfl, rfl, rfl, rfl, rfl, rfl, [], (List.append_nil _).symm⟩
  · exact ⟨rfl, rfl, rfl, rfl, rfl, rfl, rfl, rfl, [], (List.append_nil _).symm⟩
  · exact ⟨rfl, rfl, rfl, rfl, rfl, rfl, rfl, rfl, [], (List.append_nil _).symm⟩

lemma handshakeComplete_still (c : Client) : Still c c.handshakeComplete :=
  ⟨rfl, rfl, rfl, rfl, rfl, rfl, rfl, rfl, [.connected], rfl⟩

def Outcome (c : Client) (r : EResult × Client) : Prop := Still c r.2 ∨ r.1 = .kDisconnect ∧ Ended c r.2

lemma disconnect_outcome (hc : c.Coherent) (msg : Option String) : Outcome c (.kDisconnect, c.disconnect msg) :=
  .inr ⟨rfl, disconnect_ended hc.toTogether msg⟩

lemma parseHandshakeMessage_outcome (hc : c.Coherent) (m : ServerMessage) : Outcome c (c.parseHandshakeMessage m) := by
  cases m with
  | queryInfo => exact .inl (send_still c _)
  | setOptions options =>
    left
    refine (setOptions_still c options).trans (.trans ?_ (handshakeComplete_still _))
    exact ⟨rfl, rfl, rfl, rfl, rfl, Option.isSome_map, rfl, rfl, [], (List.append_nil _).symm⟩
  | resetOptions => exact .inl (resetOptions_still c)
  | keepAlive => exact .inl (send_still c _)
  | close => exact disconnect_outcome hc _
  | incompatible => exact disconnect_outcome hc _
  | busy => exact disconnect_outcome hc _
  | unknown => exact disconnect_outcome hc _
  | bad => exact disconnect_outcome hc _
  | _ => exact .inl (.refl c)

lemma parseMessage_outcome (hc : c.Coherent) (now idle : Seconds) (m : ServerMessage) :
    Outcome c (c.parseMessage now idle m) := by
  cases m with
  | dim value => exact .inl ((forkDimScreen_still c _ now idle).trans (send_still _ _))
  | queryInfo => exact .inl ((send_still c _).trans (send_still _ _))
  | setOptions options => exact .inl ((setOptions_still c options).trans (send_still _ _))
  | resetOptions => exact .inl ((resetOptions_still c).trans (send_still _ _))
  | keepAlive => exact .inl ((send_still c _).trans (send_still _ _))
  | lockState => exact .inl (send_still c _)
  | infoAck => exact .inl (send_still c _)
  | noop => exact .inl (send_still c _)
  | input => exact .inl (send_still c _)
  | close => exact disconnect_outcome hc _
  | bad => exact disconnect_outcome hc _
  | _ => exact .inl (.refl c)

lemma handleData_goes (hc : c.Coherent) (p : Proxy) (m : ServerMessage) (now idle : Seconds) :
    (c.handleData p m now idle).Coherent ∧ Goes c (c.handleData p m now idle) := by
  have hof : ∀ {d}, Still c d ∨ Ended c d → d.Coherent ∧ Goes c d := by
    rintro d (h | h)
    · exact ⟨h.coherent hc, h.goes⟩
    · exact ⟨h.coherent, h.goes⟩
  apply hof
  have houtcome : Outcome c (if p.handshake then c.parseHandshakeMessage m else c.parseMessage now idle m) := by
    split_ifs
    · exact parseHandshakeMessage_outcome hc m
    · exact parseMessage_outcome hc now idle m
  unfold handleData
  split
  · exact .inr (disconnect_ended hc.toTogether _)
  · exact .inr ((send_still c .bad).ended (disconnect_ended ((send_still c .bad).coherent hc).toTogether _))
  · split
    · rename_i d hparse
      rw [hparse] at houtcome
      rcases houtcome with hsame | ⟨hkind, -⟩
      · exact .inr (hsame.ended (disconnect_ended (hsame.coherent hc).toTogether _))
      · contradiction
    · rename_i kind d hparse
      rw [hparse] at houtcome
      exact houtcome.imp_right And.right

lemma handleSuspend_goes (hc : c.Coherent) : c.handleSuspend.Coherent ∧ Goes c c.handleSuspend := by
  have htogether : Together { c with suspended := true } := ⟨hc.stream_iff, hc.timer, hc.connecting, hc.hello, hc.connection⟩
  have hended := disconnect_ended htogether none
  have hcoherent := hended.coherent
  obtain ⟨added, hadded, hends⟩ := hended.events
  refine ⟨⟨⟨?_, ?_, ?_, ?_, ?_⟩, ?_⟩, added, hadded, fun _ => .inr hends⟩
  · exact hcoherent.stream_iff
  · exact hcoherent.timer
  · exact hcoherent.connecting
  · exact hcoherent.hello
  · exact hcoherent.connection
  · exact hcoherent.suspended

lemma handleResume_goes (hc : c.Coherent) (failure : Option String) :
    (c.handleResume failure).Coherent ∧ Goes c (c.handleResume failure) := by
  have hresumed : Coherent { c with suspended := false } :=
    ⟨⟨hc.stream_iff, hc.timer, hc.connecting, hc.hello, hc.connection⟩, by simp⟩
  unfold handleResume
  dsimp only
  split_ifs with hresume
  · have hready : Coherent { c with suspended := false, connectOnResume := false } :=
      ⟨⟨hc.stream_iff, hc.timer, hc.connecting, hc.hello, hc.connection⟩, by simp⟩
    obtain ⟨hcoherent, added, hadded, hdone⟩ := connect_goes hready failure
    exact ⟨hcoherent, added, hadded, fun _ => hdone⟩
  · refine ⟨hresumed, [], (List.append_nil _).symm, fun hbusy => .inl ?_⟩
    rcases hbusy with htimer | hserver | ⟨-, honResume⟩
    · exact .inl htimer
    · exact .inr (.inl hserver)
    · exact absurd honResume hresume

lemma pollLocalInput_still (c : Client) (now idle : Seconds) : Still c (c.pollLocalInput now idle) := by
  rw [pollLocalInput]
  split_ifs
  · exact .refl c
  · exact .refl c
  · exact .refl c
  · exact .refl c
  · rw [sendUndimRequest]
    split_ifs <;> exact ⟨rfl, rfl, rfl, rfl, rfl, rfl, rfl, rfl, [], (List.append_nil _).symm⟩

lemma step_goes (hc : c.Coherent) (e : ClientStep) : (c.step e).Coherent ∧ Goes c (c.step e) := by
  have hstay : c.Coherent ∧ Goes c c := ⟨hc, (Still.refl c).goes⟩
  have hend : ∀ {d}, Ended c d → d.Coherent ∧ Goes c d := fun h => ⟨h.coherent, h.goes⟩
  cases e with
  | connect failure =>
    obtain ⟨hcoherent, added, hadded, hdone⟩ := connect_goes hc failure
    exact ⟨hcoherent, added, hadded, fun _ => hdone⟩
  | connected =>
    rw [step]
    split_ifs with h
    · exact handleConnected_goes hc h
    · exact hstay
  | connectionFailed what =>
    rw [step]
    split_ifs with h
    · exact hend (handleConnectionFailed_ended hc h what)
    · exact hstay
  | timeout =>
    rw [step]
    split_ifs with h
    · exact hend (handleConnectTimeout_ended hc h)
    · exact hstay
  | hello version =>
    rw [step]
    split_ifs with h
    · exact handleHello_goes hc h version
    · exact hstay
  | message m now idle =>
    rw [step]
    split
    · split_ifs
      · exact handleData_goes hc _ m now idle
      · exact hstay
    · exact hstay
  | outputError =>
    rw [step]
    split_ifs
    · exact hend (handleDisconnected_ended hc)
    · exact hstay
  | disconnected =>
    rw [step]
    split_ifs
    · exact hend (handleDisconnected_ended hc)
    · exact hstay
  | keepAliveAlarm =>
    rw [step]
    split
    · split_ifs
      · exact hend (disconnect_ended hc.toTogether _)
      · exact hstay
    · exact hstay
  | suspend => exact handleSuspend_goes hc
  | resume failure => exact handleResume_goes hc failure
  | poll now idle =>
    rw [step]
    split_ifs
    · exact ⟨(pollLocalInput_still c now idle).coherent hc, (pollLocalInput_still c now idle).goes⟩
    · exact hstay

end Steps

end Client

end InputLeap
