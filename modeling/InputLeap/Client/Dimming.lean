import InputLeap.Client.Client
import InputLeap.Lib.Reachable

/-! Whether a client that has no server is left with a dimmed screen. -/

namespace InputLeap.Client

open InputLeap.Lib

/-- Without a server the screen has not been dimmed last, and the local input is not polled. -/
def Undimmed (c : Client) : Prop := c.server = none → c.dims.getLast? ≠ some true ∧ c.poller = false

def next (c : Client) (e : ClientStep) : Option Client := some (c.step e)

def Keeps (c : Client) (e : ClientStep) : Prop := ∀ t, c.next e = some t → t.Undimmed

def Proxy.ends (p : Proxy) : ServerMessage → Bool
  | .close | .bad | .incompatible | .busy | .unknown | .invalid | .incomplete | .tooLong => true
  | .dim _ | .lockState | .input => p.handshake
  | .queryInfo | .infoAck | .setOptions _ | .resetOptions | .keepAlive | .noop => false

def Drops (c : Client) : ClientStep → Prop
  | .message m _ _ => c.inputHandler = some .data ∧ ∃ p, c.server = some p ∧ p.ends m = true
  | .outputError | .disconnected => c.connection = true
  | .keepAliveAlarm => ∃ p, c.server = some p ∧ 0 < p.keepAliveAlarm
  | .suspend => True
  | _ => False

def Meets (c : Client) (e : ClientStep) : Prop := c.Drops e → c.isDimmed = false

structure Inv (c : Client) : Prop where
  dimmed : c.dims.getLast? = some true ↔ c.isDimmed = true
  polled : c.poller = true → c.isDimmed = true
  ready : c.ready = true → c.server.isSome = true

variable {c t u : Client}

lemma Inv.light_iff (h : c.Inv) : c.Undimmed ↔ (c.server = none → c.isDimmed = false) := by
  apply imp_congr_right
  intro _
  rw [ne_eq, h.dimmed, Bool.not_eq_true]
  refine and_iff_left_of_imp (fun hlight => ?_)
  exact Bool.eq_false_iff.mpr (fun hpoller => absurd (hlight.symm.trans (h.polled hpoller)) Bool.false_ne_true)

structure Leaves (c t : Client) : Prop where
  dims : t.dims = c.dims
  isDimmed : t.isDimmed = c.isDimmed
  poller : t.poller = c.poller

lemma Leaves.trans (h : Leaves c t) (h' : Leaves t u) : Leaves c u :=
  ⟨h'.dims.trans h.dims, h'.isDimmed.trans h.isDimmed, h'.poller.trans h.poller⟩

structure Dropped (c t : Client) : Prop where
  leaves : Leaves c t
  server : t.server = none
  ready : t.ready = true → c.ready = true ∧ c.server = none

structure Kept (c t : Client) : Prop where
  leaves : Leaves c t
  server : t.server.isSome = c.server.isSome
  ready : t.ready = c.ready

lemma Kept.refl (c : Client) : Kept c c := ⟨⟨rfl, rfl, rfl⟩, rfl, rfl⟩

lemma Kept.trans (h : Kept c t) (h' : Kept t u) : Kept c u :=
  ⟨h.leaves.trans h'.leaves, h'.server.trans h.server, h'.ready.trans h.ready⟩

lemma send_kept (c : Client) (m : ClientMessage) : Kept c (c.send m) := ⟨⟨rfl, rfl, rfl⟩, rfl, rfl⟩

lemma sendEvent_kept (c : Client) (e : ClientEvent) : Kept c (c.sendEvent e) := ⟨⟨rfl, rfl, rfl⟩, rfl, rfl⟩

lemma cleanupTimer_kept (c : Client) : Kept c c.cleanupTimer := ⟨⟨rfl, rfl, rfl⟩, rfl, rfl⟩

lemma cleanupConnecting_kept (c : Client) : Kept c c.cleanupConnecting := ⟨⟨rfl, rfl, rfl⟩, rfl, rfl⟩

lemma cleanupStream_kept (c : Client) : Kept c c.cleanupStream := ⟨⟨rfl, rfl, rfl⟩, rfl, rfl⟩

lemma cleanupConnection_kept (c : Client) : Kept c c.cleanupConnection := by
  rw [cleanupConnection]
  split_ifs
  · exact cleanupStream_kept c
  · exact .refl c

lemma cleanupScreen_dropped (c : Client) : Dropped c c.cleanupScreen := by
  rw [cleanupScreen]
  split_ifs with hserver
  · exact ⟨⟨rfl, rfl, rfl⟩, rfl, fun h => absurd h Bool.false_ne_true⟩
  · have hnone : c.server = none := Option.not_isSome_iff_eq_none.mp hserver
    exact ⟨⟨rfl, rfl, rfl⟩, hnone, fun h => ⟨h, hnone⟩⟩

lemma Dropped.after (h : Dropped c t) (h' : Kept t u) : Dropped c u where
  leaves := h.leaves.trans h'.leaves
  server := by
    rw [← Option.not_isSome_iff_eq_none, h'.server, h.server]
    exact Bool.false_ne_true
  ready hready := h.ready (h'.ready.symm.trans hready)

lemma Dropped.before (h : Kept c t) (h' : Dropped t u) : Dropped c u where
  leaves := h.leaves.trans h'.leaves
  server := h'.server
  ready hready := by
    obtain ⟨hready', hserver⟩ := h'.ready hready
    refine ⟨h.ready.symm.trans hready', ?_⟩
    rw [← Option.not_isSome_iff_eq_none, ← h.server, hserver]
    exact Bool.false_ne_true

lemma disconnect_dropped (c : Client) (msg : Option String) : Dropped c (c.disconnect msg) := by
  have hresume : Kept c { c with connectOnResume := false } := ⟨⟨rfl, rfl, rfl⟩, rfl, rfl⟩
  have hscreen := Dropped.before (hresume.trans (cleanupTimer_kept _)) (cleanupScreen_dropped _)
  have hdropped := (hscreen.after (cleanupConnecting_kept _)).after (cleanupConnection_kept _)
  rw [disconnect.eq_def]
  cases msg with
  | none => exact hdropped.after (sendEvent_kept _ _)
  | some msg => exact hdropped.after (sendEvent_kept _ _)

lemma handleDisconnected_dropped (c : Client) : Dropped c c.handleDisconnected := by
  have hscreen := Dropped.before (cleanupTimer_kept c) (cleanupScreen_dropped _)
  exact (hscreen.after (cleanupConnection_kept _)).after (sendEvent_kept _ _)

lemma handleSuspend_dropped (c : Client) : Dropped c c.handleSuspend := by
  have hsuspended : Kept c { c with suspended := true } := ⟨⟨rfl, rfl, rfl⟩, rfl, rfl⟩
  have hdropped := Dropped.before hsuspended (disconnect_dropped _ none)
  exact hdropped.after ⟨⟨rfl, rfl, rfl⟩, rfl, rfl⟩

lemma connect_kept (c : Client) (failure : Option String) : Kept c (c.connect failure) := by
  rw [connect.eq_def]
  split_ifs
  · exact .refl c
  · exact ⟨⟨rfl, rfl, rfl⟩, rfl, rfl⟩
  · cases failure with
    | none => exact ⟨⟨rfl, rfl, rfl⟩, rfl, rfl⟩
    | some what =>
      exact (((cleanupTimer_kept c).trans (cleanupConnecting_kept _)).trans (cleanupStream_kept _)).trans
        (sendEvent_kept _ _)

lemma handleConnected_kept (c : Client) : Kept c c.handleConnected :=
  (cleanupConnecting_kept c).trans ⟨⟨rfl, rfl, rfl⟩, rfl, rfl⟩

lemma handleConnectionFailed_kept (c : Client) (what : String) : Kept c (c.handleConnectionFailed what) :=
  (((cleanupTimer_kept c).trans (cleanupConnecting_kept _)).trans (cleanupStream_kept _)).trans (sendEvent_kept _ _)

lemma handleConnectTimeout_kept (c : Client) : Kept c c.handleConnectTimeout :=
  ((((cleanupTimer_kept c).trans (cleanupConnecting_kept _)).trans (cleanupConnection_kept _)).trans
    (cleanupStream_kept _)).trans (sendEvent_kept _ _)

lemma handleResume_kept (c : Client) (failure : Option String) : Kept c (c.handleResume failure) := by
  rw [handleResume]
  dsimp only
  split_ifs
  · have hresumed : Kept c { c with suspended := false, connectOnResume := false } := ⟨⟨rfl, rfl, rfl⟩, rfl, rfl⟩
    exact hresumed.trans (connect_kept _ failure)
  · exact ⟨⟨rfl, rfl, rfl⟩, rfl, rfl⟩

lemma pollLocalInput_kept (c : Client) (now idle : Seconds) : Kept c (c.pollLocalInput now idle) := by
  rw [pollLocalInput, sendUndimRequest]
  split_ifs <;> exact ⟨⟨rfl, rfl, rfl⟩, rfl, rfl⟩

lemma setOptions_kept (c : Client) (options : List OptionID) : Kept c (c.setOptions options) := by
  rw [setOptions]
  split_ifs
  · exact .refl c
  · exact ⟨⟨rfl, rfl, rfl⟩, Option.isSome_map, rfl⟩

lemma resetOptions_kept (c : Client) : Kept c c.resetOptions := ⟨⟨rfl, rfl, rfl⟩, Option.isSome_map, rfl⟩

lemma Kept.inv (h : Kept c t) (hc : c.Inv) : t.Inv where
  dimmed := by
    rw [h.leaves.dims, h.leaves.isDimmed]
    exact hc.dimmed
  polled := by
    rw [h.leaves.poller, h.leaves.isDimmed]
    exact hc.polled
  ready := by
    rw [h.ready, h.server]
    exact hc.ready

lemma Dropped.inv (h : Dropped c t) (hc : c.Inv) : t.Inv where
  dimmed := by
    rw [h.leaves.dims, h.leaves.isDimmed]
    exact hc.dimmed
  polled := by
    rw [h.leaves.poller, h.leaves.isDimmed]
    exact hc.polled
  ready hready := by
    obtain ⟨hready', hserver⟩ := h.ready hready
    rw [← hc.ready hready', hserver, h.server]

lemma startUndimPoller_eq (c : Client) (idle : Seconds) :
    ∃ poller, c.startUndimPoller idle = { c with poller := poller } := by
  rw [startUndimPoller]
  split_ifs
  · exact ⟨c.poller, rfl⟩
  · exact ⟨c.poller, rfl⟩
  · exact ⟨true, rfl⟩

lemma forkDimScreen_eq (c : Client) (dim : Bool) (now idle : Seconds) :
    ∃ dimmedAt unanswered poller, c.forkDimScreen dim now idle = { c with
      dims := c.dims ++ [dim]
      isDimmed := dim
      dimmedAt := dimmedAt
      unansweredRequests := unanswered
      poller := poller } ∧ (dim = false → poller = true → c.isDimmed = false ∧ c.poller = true) := by
  rw [forkDimScreen]
  dsimp only
  cases dim with
  | false =>
    by_cases hdimmed : c.isDimmed = true
    · rw [if_neg (by simp), if_pos (by simp [hdimmed])]
      exact ⟨c.dimmedAt, 0, false, rfl, fun _ h => absurd h Bool.false_ne_true⟩
    · rw [if_neg (by simp), if_neg (by simp [hdimmed])]
      exact ⟨c.dimmedAt, c.unansweredRequests, c.poller, rfl,
        fun _ hpoller => ⟨Bool.eq_false_iff.mpr hdimmed, hpoller⟩⟩
  | true =>
    by_cases hdimmed : c.isDimmed = true
    · rw [if_neg (by simp [hdimmed]), if_neg (by simp)]
      exact ⟨c.dimmedAt, c.unansweredRequests, c.poller, rfl, fun h => absurd h.symm Bool.false_ne_true⟩
    · obtain ⟨poller, hstart⟩ := startUndimPoller_eq
        { c with dims := c.dims ++ [true], dimmedAt := now, unansweredRequests := 0 } idle
      rw [if_pos (by simp [hdimmed]), hstart]
      exact ⟨now, 0, poller, rfl, fun h => absurd h.symm Bool.false_ne_true⟩

lemma forkDimScreen_inv (hc : c.Inv) (dim : Bool) (now idle : Seconds) : (c.forkDimScreen dim now idle).Inv := by
  obtain ⟨dimmedAt, unanswered, poller, heq, hpoller⟩ := forkDimScreen_eq c dim now idle
  rw [heq]
  refine ⟨by simp, fun hpolled => ?_, hc.ready⟩
  cases dim with
  | true => rfl
  | false =>
    obtain ⟨hlight, hpolled'⟩ := hpoller rfl hpolled
    exact absurd (hlight.symm.trans (hc.polled hpolled')) Bool.false_ne_true

/-- The client outlasts the step: what loses no server stays as it is, and a server that is there remains. -/
structure Lasts (c t : Client) : Prop where
  inv : c.Inv → t.Inv
  server : t.server = none → c.server = none ∧ t.isDimmed = c.isDimmed

lemma Kept.lasts (h : Kept c t) : Lasts c t where
  inv := h.inv
  server hnone := by
    refine ⟨?_, h.leaves.isDimmed⟩
    rw [← Option.not_isSome_iff_eq_none, ← h.server, hnone]
    exact Bool.false_ne_true

lemma Lasts.of_server (hinv : c.Inv → t.Inv) (hsome : t.server.isSome = true) : Lasts c t :=
  ⟨hinv, fun hnone => absurd ((congrArg Option.isSome hnone).symm.trans hsome) Bool.false_ne_true⟩

lemma handleHello_lasts (c : Client) (version : Option (ℤ × ℤ)) : Lasts c (c.handleHello version) := by
  have hrefused (what : String) :
      Lasts c (c.sendEvent (.connectionFailed what)).cleanupTimer.cleanupConnection :=
    (((sendEvent_kept c _).trans (cleanupTimer_kept _)).trans (cleanupConnection_kept _)).lasts
  rw [handleHello.eq_def]
  split
  · exact hrefused _
  · dsimp only
    split_ifs
    · exact hrefused _
    · exact .of_server (fun hc => ⟨hc.dimmed, hc.polled, fun _ => rfl⟩) rfl

structure Taken (c : Client) (r : EResult × Client) : Prop where
  result : r.1 = .kOkay
  inv : c.Inv → r.2.Inv
  server : r.2.server.isSome = true

variable {p : Proxy} {m : ServerMessage}

lemma Kept.taken (h : Kept c t) (hserver : c.server = some p) : Taken c (.kOkay, t) where
  result := rfl
  inv := h.inv
  server := by rw [h.server, hserver, Option.isSome_some]

lemma parseHandshakeMessage_taken (hserver : c.server = some p) (hhandshake : p.handshake = true)
    (hends : p.ends m = false) : Taken c (c.parseHandshakeMessage m) := by
  cases m with
  | queryInfo | keepAlive => exact (send_kept c _).taken hserver
  | infoAck | noop => exact (Kept.refl c).taken hserver
  | resetOptions => exact (resetOptions_kept c).taken hserver
  | setOptions options =>
    have hkept := setOptions_kept c options
    have hsome : (c.setOptions options).server.isSome = true := by rw [hkept.server, hserver, Option.isSome_some]
    exact ⟨rfl, fun hc => ⟨(hkept.inv hc).dimmed, (hkept.inv hc).polled, fun _ => Option.isSome_map.trans hsome⟩,
      Option.isSome_map.trans hsome⟩
  | dim | lockState | input => exact absurd (hends.symm.trans hhandshake) Bool.false_ne_true
  | close | bad | incompatible | busy | unknown | invalid | incomplete | tooLong =>
    exact absurd hends.symm Bool.false_ne_true

lemma parseMessage_taken (hserver : c.server = some p) (hends : p.ends m = false) (now idle : Seconds) :
    Taken c (c.parseMessage now idle m) := by
  cases m with
  | dim value =>
    obtain ⟨dimmedAt, unanswered, poller, heq, -⟩ := forkDimScreen_eq c (decide (value ≠ 0)) now idle
    refine ⟨rfl, fun hc => (send_kept _ _).inv (forkDimScreen_inv hc _ now idle), ?_⟩
    change (c.forkDimScreen (decide (value ≠ 0)) now idle).server.isSome = true
    rw [heq, hserver, Option.isSome_some]
  | lockState | infoAck | noop | input => exact (send_kept c _).taken hserver
  | queryInfo | keepAlive => exact ((send_kept c _).trans (send_kept _ _)).taken hserver
  | setOptions options => exact ((setOptions_kept c options).trans (send_kept _ _)).taken hserver
  | resetOptions => exact ((resetOptions_kept c).trans (send_kept _ _)).taken hserver
  | close | bad | incompatible | busy | unknown | invalid | incomplete | tooLong =>
    exact absurd hends.symm Bool.false_ne_true

lemma handleData_lasts (hserver : c.server = some p) (hends : p.ends m = false) (now idle : Seconds) :
    Lasts c (c.handleData p m now idle) := by
  have hparsed : Taken c (if p.handshake then c.parseHandshakeMessage m else c.parseMessage now idle m) := by
    split_ifs with hhandshake
    · exact parseHandshakeMessage_taken hserver hhandshake hends
    · exact parseMessage_taken hserver hends now idle
  rw [handleData.eq_def]
  split
  · exact absurd hends.symm Bool.false_ne_true
  · exact absurd hends.symm Bool.false_ne_true
  · generalize (if p.handshake then c.parseHandshakeMessage m else c.parseMessage now idle m) = r at hparsed
    obtain ⟨result, t⟩ := r
    obtain rfl : result = .kOkay := hparsed.result
    exact .of_server hparsed.inv hparsed.server

lemma parse_ended (hends : p.ends m = true) (hread : m ≠ .incomplete ∧ m ≠ .tooLong) (now idle : Seconds) :
    (if p.handshake then c.parseHandshakeMessage m else c.parseMessage now idle m) = (.kUnknown, c) ∨
      ∃ msg, (if p.handshake then c.parseHandshakeMessage m else c.parseMessage now idle m) =
        (.kDisconnect, c.disconnect msg) := by
  cases hhandshake : p.handshake with
  | true =>
    cases m with
    | dim | lockState | input | invalid => exact .inl rfl
    | close | bad | incompatible | busy | unknown => exact .inr ⟨_, rfl⟩
    | incomplete => exact absurd rfl hread.1
    | tooLong => exact absurd rfl hread.2
    | queryInfo | infoAck | setOptions | resetOptions | keepAlive | noop => exact absurd hends Bool.false_ne_true
  | false =>
    cases m with
    | dim | lockState | input => exact absurd (hhandshake.symm.trans hends) Bool.false_ne_true
    | close | bad => exact .inr ⟨_, rfl⟩
    | incompatible | busy | unknown | invalid => exact .inl rfl
    | incomplete => exact absurd rfl hread.1
    | tooLong => exact absurd rfl hread.2
    | queryInfo | infoAck | setOptions | resetOptions | keepAlive | noop => exact absurd hends Bool.false_ne_true

lemma handleData_dropped (hends : p.ends m = true) (now idle : Seconds) : Dropped c (c.handleData p m now idle) := by
  by_cases hincomplete : m = .incomplete
  · rw [hincomplete, handleData]
    exact disconnect_dropped c _
  by_cases htooLong : m = .tooLong
  · rw [htooLong, handleData]
    exact Dropped.before (send_kept c _) (disconnect_dropped _ _)
  rw [handleData.eq_def]
  split
  · exact absurd rfl hincomplete
  · exact absurd rfl htooLong
  · obtain hunknown | ⟨msg, hended⟩ := parse_ended (c := c) hends ⟨hincomplete, htooLong⟩ now idle
    · rw [hunknown]
      exact disconnect_dropped c _
    · rw [hended]
      exact disconnect_dropped c msg

lemma step_dropped {e : ClientStep} (hdrops : c.Drops e) : Dropped c (c.step e) := by
  cases e with
  | message m now idle =>
    obtain ⟨hinput, p, hserver, hends⟩ := hdrops
    rw [step]
    simp only [hserver, hinput, if_true]
    exact handleData_dropped hends now idle
  | outputError | disconnected =>
    have hconnection : c.connection = true := hdrops
    rw [step, if_pos hconnection]
    exact handleDisconnected_dropped c
  | keepAliveAlarm =>
    obtain ⟨p, hserver, halarm⟩ := hdrops
    rw [step]
    simp only [hserver]
    rw [if_pos halarm]
    exact disconnect_dropped c _
  | suspend => exact handleSuspend_dropped c
  | connect | connected | connectionFailed | timeout | hello | resume | poll => exact hdrops.elim

lemma step_lasts {e : ClientStep} (hdrops : ¬ c.Drops e) : Lasts c (c.step e) := by
  have hsame : Lasts c c := (Kept.refl c).lasts
  cases e with
  | connect failure => exact (connect_kept c failure).lasts
  | connected =>
    rw [step]
    split_ifs
    · exact (handleConnected_kept c).lasts
    · exact hsame
  | connectionFailed what =>
    rw [step]
    split_ifs
    · exact (handleConnectionFailed_kept c what).lasts
    · exact hsame
  | timeout =>
    rw [step]
    split_ifs
    · exact (handleConnectTimeout_kept c).lasts
    · exact hsame
  | hello version =>
    rw [step]
    split_ifs
    · exact handleHello_lasts c version
    · exact hsame
  | message m now idle =>
    rw [step]
    cases hserver : c.server with
    | none => exact hsame
    | some p =>
      dsimp only
      split_ifs with hinput
      · refine handleData_lasts hserver ?_ now idle
        exact Bool.eq_false_iff.mpr (fun hends => hdrops ⟨hinput, p, hserver, hends⟩)
      · exact hsame
  | outputError | disconnected =>
    have hconnection : ¬ c.connection = true := hdrops
    rw [step, if_neg hconnection]
    exact hsame
  | keepAliveAlarm =>
    rw [step]
    cases hserver : c.server with
    | none => exact hsame
    | some p =>
      dsimp only
      rw [if_neg (fun halarm => hdrops ⟨p, hserver, halarm⟩)]
      exact hsame
  | suspend => exact absurd trivial hdrops
  | resume failure => exact (handleResume_kept c failure).lasts
  | poll now idle =>
    rw [step]
    split_ifs
    · exact (pollLocalInput_kept c now idle).lasts
    · exact hsame

lemma step_inv (hc : c.Inv) (e : ClientStep) : (c.step e).Inv := by
  by_cases hdrops : c.Drops e
  · exact (step_dropped hdrops).inv hc
  · exact (step_lasts hdrops).inv hc

lemma keeps_iff_meets (hc : c.Inv) (hlit : c.Undimmed) (e : ClientStep) : c.Keeps e ↔ c.Meets e := by
  have hkeeps : c.Keeps e ↔ (c.step e).Undimmed := ⟨fun h => h _ rfl, fun h t ht => Option.some.inj ht ▸ h⟩
  rw [hkeeps, (step_inv hc e).light_iff]
  by_cases hdrops : c.Drops e
  · have hdropped := step_dropped hdrops
    rw [hdropped.leaves.isDimmed]
    exact ⟨fun h _ => h hdropped.server, fun h _ => h hdrops⟩
  · refine iff_of_true (fun hnone => ?_) (fun h => absurd h hdrops)
    obtain ⟨hserver, hsame⟩ := (step_lasts hdrops).server hnone
    rw [hsame]
    exact hc.light_iff.mp hlit hserver

lemma new_inv : new.Inv where
  dimmed := by decide
  polled := fun h => absurd h Bool.false_ne_true
  ready := fun h => absurd h Bool.false_ne_true

/-- In every state of a run a client without a server is undimmed, exactly as long as no proxy is deleted while the
screen is dimmed. -/
theorem undimmed_iff (es : List ClientStep) : Along next Keeps es new ↔ Along next Meets es new := by
  refine Along.congr (I := fun c => c.Inv ∧ c.Undimmed) (fun c e hc => keeps_iff_meets hc.1 hc.2 e) ?_
    ⟨new_inv, fun _ => ⟨by decide, rfl⟩⟩
  intro c e t hc hkeeps ht
  refine ⟨?_, hkeeps t ht⟩
  obtain rfl := Option.some.inj ht
  exact step_inv hc.1 e

def dimmedSteps : List ClientStep :=
  [.connect none, .connected, .hello (some (1, 6)), .message (.setOptions []) 0 0, .message (.dim 1) 0 0, .disconnected]

/-- The server closes the connection while it has the screen dimmed. -/
theorem left_dimmed : ¬ ∀ (es : List ClientStep) (c : Client), runFrom next es new = some c → c.Undimmed := by
  intro hall
  have hlit := hall dimmedSteps _ rfl rfl
  exact absurd hlit.2 (by decide)

end InputLeap.Client
