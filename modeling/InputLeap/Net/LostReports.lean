import InputLeap.Net.Connection

/-! How often the loss of a connection is reported. -/

namespace InputLeap.Net

open InputLeap.Lib InputLeap.Io

namespace Socket

/-- The loss has been reported, if all is well: by `m_connected`, or else by TLS. -/
def Lost (s : Socket) : Prop := s.connected = false ∨ s.tls.disconnected = true

def reports (s : Socket) : ℕ := s.events.count .socketDisconnected

def errorOf {α : Type} : Except SslError α → Option SslError
  | .ok _ => none
  | .error e => some e

def Fails (s : Socket) (error : Option SslError) : Prop :=
  s.tls.fatal = true ∨ ∃ e, error = some e ∧ e.retries = false

def WriteFails (s : Socket) (wrote : SslWrite) : Prop :=
  s.tls.secureReady = true ∧ s.tls.ssl = true ∧ s.retryBuffer.2 ≠ 0 ∧ s.Fails (errorOf wrote)

def ReadsFail (s : Socket) (reads : List SslRead) : Prop := s.tls.fatal = true ∨ ∃ read ∈ reads, s.Fails (errorOf read)

def ReadFails (s : Socket) (reads : List SslRead) : Prop :=
  s.tls.secureReady = true ∧ s.tls.ssl = true ∧ s.ReadsFail reads

def Hangs (s : Socket) (wrote : SocketWrite) : Prop :=
  wrote = .error .disconnected ∨ wrote = .error .other ∨
    wrote = .error .shutdown ∧ s.readable = false ∧ s.inputBuffer.getSize = 0

/-- The pass meets the loss of the connection, though it may not be the first to do so. -/
def Breaks (s : Socket) (p : Pass) : Prop :=
  p.error = true ∨
    if s.secure then p.write = true ∧ s.WriteFails p.sslWrote ∨ (p.read && s.readable) = true ∧ s.ReadFails p.sslReads
    else p.write = true ∧ s.Hangs p.wrote

/-- The loss is met by a pass that is the first to meet it, and by its write or its read alone. -/
def PassMeets (s : Socket) (p : Pass) : Prop :=
  (s.Breaks p → ¬ s.Lost) ∧
    (s.secure = true → p.error = false → p.write = true ∧ s.WriteFails p.sslWrote → (p.read && s.readable) = false)

def HandshakeFails (s : Socket) (h : Handshake) (result : Option SslError) (trusted : Bool) : Prop :=
  s.Fails result ∨ result = none ∧ trusted = false ∧ h ≠ .accept false

/-- Without a connection nothing is read any more, and what has been is gone. -/
structure Sound (s : Socket) : Prop where
  down : s.connected = false → s.readable = false
  drained : s.readable = false → s.connected = false ∨ s.secure = true → s.inputBuffer.getSize = 0
  plain : s.secure = false → s.tls.disconnected = false

/-- The loss is reported `k` times on the way from `s` to `t`. -/
structure Reports (k : ℕ) (s t : Socket) : Prop where
  secure : t.secure = s.secure
  count : t.reports = s.reports + k
  lost : t.Lost ↔ s.Lost ∨ 0 < k
  sound : s.Sound → t.Sound

end Socket

namespace Connection

/-- A loss is only met by a connection that has not been lost before, and once. -/
def Meets (c : Connection) : ConnectionStep → Prop
  | .closeLocked => c.socket.connected = true → c.socket.tls.disconnected = false
  | .service p => c.socket.socket = true → c.socket.PassMeets p
  | .handshake h result trusted => c.socket.socket = true → c.socket.HandshakeFails h result trusted → ¬ c.socket.Lost
  | _ => True

end Connection

namespace Socket

variable {s t u : Socket} {k l : ℕ}

lemma Reports.refl (s : Socket) : Reports 0 s s := ⟨rfl, rfl, by simp, id⟩

lemma Reports.trans (h : Reports k s t) (h' : Reports l t u) : Reports (k + l) s u where
  secure := h'.secure.trans h.secure
  count := by rw [h'.count, h.count, Nat.add_assoc]
  lost := by
    rw [h'.lost, h.lost, or_assoc]
    apply or_congr_right
    omega
  sound hs := h'.sound (h.sound hs)

lemma Reports.of_same (hsecure : t.secure = s.secure) (hconnected : t.connected = s.connected)
    (hreadable : t.readable = s.readable) (hinput : t.inputBuffer = s.inputBuffer)
    (hdisconnected : t.tls.disconnected = s.tls.disconnected) (hreports : t.reports = s.reports) : Reports 0 s t where
  secure := hsecure
  count := hreports
  lost := by simp [Lost, hconnected, hdisconnected]
  sound hs := by
    constructor
    · rw [hconnected, hreadable]
      exact hs.down
    · rw [hreadable, hconnected, hsecure, hinput]
      exact hs.drained
    · rw [hsecure, hdisconnected]
      exact hs.plain

lemma reports_sendEvent (s : Socket) (e : SocketEvent) :
    (s.sendEvent e).reports = s.reports + if e = .socketDisconnected then 1 else 0 := by
  rw [reports, sendEvent, List.count_append, List.count_singleton]
  simp [reports]

lemma sendEvent_reports {e : SocketEvent} (he : e ≠ .socketDisconnected) : Reports 0 s (s.sendEvent e) :=
  .of_same rfl rfl rfl rfl rfl (by rw [reports_sendEvent, if_neg he, Nat.add_zero])

lemma Reports.of_readable (hsecure : t.secure = s.secure) (hconnected : t.connected = s.connected)
    (hreadable : s.readable = true) (hreadable' : t.readable = true)
    (hdisconnected : t.tls.disconnected = s.tls.disconnected) (hreports : t.reports = s.reports) : Reports 0 s t where
  secure := hsecure
  count := hreports
  lost := by simp [Lost, hconnected, hdisconnected]
  sound hs := by
    constructor
    · rw [hconnected, hreadable', ← hreadable]
      exact hs.down
    · exact fun hdown => absurd (hdown.symm.trans hreadable') Bool.false_ne_true
    · rw [hsecure, hdisconnected]
      exact hs.plain

lemma onInputShutdown_reports (s : Socket) : Reports 0 s s.onInputShutdown where
  secure := rfl
  count := rfl
  lost := by simp [Lost, onInputShutdown]
  sound hs := ⟨fun _ => rfl, fun _ _ => rfl, hs.plain⟩

lemma onOutputShutdown_reports (s : Socket) : Reports 0 s s.onOutputShutdown := .of_same rfl rfl rfl rfl rfl rfl

lemma onDisconnected_reports (hsecure : t.secure = s.secure) (hreports : t.reports = s.reports + 1)
    (hconnected : t.connected = false) (hreadable : t.readable = false) (hinput : t.inputBuffer.getSize = 0)
    (hdisconnected : t.tls.disconnected = s.tls.disconnected) : Reports 1 s t where
  secure := hsecure
  count := hreports
  lost := by simp [Lost, hconnected]
  sound hs := by
    refine ⟨fun _ => hreadable, fun _ _ => hinput, ?_⟩
    rw [hsecure, hdisconnected]
    exact hs.plain

lemma disconnect_reports (hsecure : s.secure = true) : Reports 1 s s.disconnect := by
  have hreports : s.disconnect.reports = s.reports + 1 := by
    change (((s.sendEvent .socketStopRetry).sendEvent .socketDisconnected).sendEvent .streamInputShutdown).reports = _
    rw [reports_sendEvent, reports_sendEvent, reports_sendEvent, if_neg (by decide), if_pos rfl, if_neg (by decide)]
  have hsame : s.disconnect.secure = s.secure := by
    rw [disconnect]
    rfl
  have hlost : s.disconnect.Lost := .inr (by rw [disconnect])
  obtain ⟨hundisturbed, hinput⟩ := disconnect_undisturbed s
  refine ⟨hsame, hreports, iff_of_true hlost (.inr one_pos), fun hs => ⟨?_, ?_, ?_⟩⟩
  · rw [hundisturbed.connected, hundisturbed.readable]
    exact hs.down
  · rw [hundisturbed.connected, hundisturbed.readable, hsame, hinput]
    exact hs.drained
  · rw [hsame]
    exact fun hplain => absurd (hplain.symm.trans hsecure) Bool.false_ne_true

lemma close_reports (s : Socket) : Reports (if s.connected then 1 else 0) s s.close := by
  rw [close]
  cases hconnected : s.connected with
  | true =>
    rw [if_pos rfl]
    refine onDisconnected_reports rfl ?_ rfl rfl rfl rfl
    exact (reports_sendEvent s _).trans (by rw [if_pos rfl])
  | false =>
    rw [if_neg Bool.false_ne_true]
    refine ⟨rfl, rfl, by simp [Lost, hconnected, onDisconnected], fun hs => ⟨fun _ => rfl, fun _ _ => rfl, hs.plain⟩⟩

lemma loseConnection_reports (hreadable : s.readable = false) (hinput : s.inputBuffer.getSize = 0) :
    Reports 1 s s.loseConnection :=
  onDisconnected_reports rfl ((reports_sendEvent s _).trans (by rw [if_pos rfl])) rfl hreadable hinput rfl

structure ReportsIf (P : Prop) (s t : Socket) : Prop where
  once (h : P) : Reports 1 s t
  never (h : ¬ P) : Reports 0 s t

lemma ReportsIf.of_pos {P : Prop} (hP : P) (h : Reports 1 s t) : ReportsIf P s t :=
  ⟨fun _ => h, fun hnot => absurd hP hnot⟩

lemma ReportsIf.of_neg {P : Prop} (hP : ¬ P) (h : Reports 0 s t) : ReportsIf P s t :=
  ⟨fun hpos => absurd hpos hP, fun _ => h⟩

lemma ReportsIf.after {P : Prop} (h : ReportsIf P s t) (h' : Reports 0 t u) : ReportsIf P s u :=
  ⟨fun hP => (h.once hP).trans h', fun hP => (h.never hP).trans h'⟩

lemma pop_empty {b : StreamBuffer} (h : b.getSize = 0) (n : ℕ) : ((b.peek n).2.pop n).getSize = 0 := by
  have hsize : (b.peek n).2.size = b.size := by
    rw [StreamBuffer.size_eq, b.size_eq]
    exact congrArg (fun bytes : List UInt8 => bytes.length % 2 ^ 32) (b.toList_peek n)
  rw [StreamBuffer.pop, dif_pos (by rw [hsize, ← StreamBuffer.getSize, h]; exact Nat.zero_le n)]
  rfl

def Admissible (s : Socket) (k : ℕ) : Prop := k = 0 ∨ k = 1 ∧ ¬ s.Lost

lemma admissible_one : s.Admissible 1 ↔ ¬ s.Lost := by simp [Admissible]

lemma read_reports (hs : s.Sound) (n : ℕ) : ∃ k, Reports k s (s.read n).2 ∧ s.Admissible k := by
  rw [read]
  generalize hm : min n s.inputBuffer.getSize = m
  dsimp only
  set t := { s with inputBuffer := (s.inputBuffer.peek m).2.pop m } with ht
  by_cases hlast : 0 < m ∧ t.inputBuffer.getSize = 0 ∧ !s.readable ∧ !s.writable
  · have hdown : s.readable = false := by simpa using hlast.2.2.1
    have hsome : s.inputBuffer.getSize ≠ 0 := by omega
    rw [if_pos hlast]
    refine ⟨1, onDisconnected_reports rfl ?_ rfl hdown hlast.2.1 rfl, .inr ⟨rfl, ?_⟩⟩
    · exact (reports_sendEvent t _).trans (by rw [if_pos rfl]; rfl)
    · rintro (hconnected | hdisconnected)
      · exact hsome (hs.drained hdown (.inl hconnected))
      · cases hsecure : s.secure with
        | true => exact hsome (hs.drained hdown (.inr hsecure))
        | false => exact absurd ((hs.plain hsecure).symm.trans hdisconnected) Bool.false_ne_true
  · rw [if_neg hlast]
    refine ⟨0, ⟨rfl, rfl, Iff.symm (or_iff_left (lt_irrefl 0)), fun _ => ⟨hs.down, ?_, hs.plain⟩⟩, .inl rfl⟩
    intro hdown hgone
    exact pop_empty (hs.drained hdown hgone) m

lemma write_reports (s : Socket) (data : List UInt8) : Reports 0 s (s.write data).1 := by
  rw [write]
  split_ifs
  · exact sendEvent_reports (by decide)
  · exact .refl s
  · exact .of_same rfl rfl rfl rfl rfl rfl

lemma shutdownInput_reports (s : Socket) : Reports 0 s s.shutdownInput.1 := by
  rw [shutdownInput]
  split_ifs
  · exact (sendEvent_reports (by decide)).trans (onInputShutdown_reports _)
  · exact .refl s

lemma shutdownOutput_reports (s : Socket) : Reports 0 s s.shutdownOutput.1 := by
  rw [shutdownOutput]
  split_ifs
  · exact (sendEvent_reports (by decide)).trans (onOutputShutdown_reports _)
  · exact .refl s

lemma discardWrittenData_reports (s : Socket) (n : ℕ) : Reports 0 s (s.discardWrittenData n) := by
  rw [discardWrittenData]
  dsimp only
  split_ifs
  · exact .of_same rfl rfl rfl rfl rfl (by simp [reports, sendEvent])
  · exact .of_same rfl rfl rfl rfl rfl rfl

/-! ## Without TLS -/

lemma serviceWrite_tcp (hplain : s.secure = false) (p : Pass) : ReportsIf (s.Hangs p.wrote) s (s.serviceWrite p).2 ∧
    (s.Hangs p.wrote → (s.serviceWrite p).2.readable = false) ∧
      (¬ s.Hangs p.wrote → (s.serviceWrite p).2.readable = s.readable) := by
  rw [serviceWrite, if_neg (by rw [hplain]; exact Bool.false_ne_true), doWriteTcp.eq_def]
  cases hwrote : p.wrote with
  | ok bytesWrote =>
    have hnot : ¬ s.Hangs (.ok bytesWrote) := by simp [Hangs]
    refine ⟨.of_neg hnot ?_, fun h => absurd h hnot, fun _ => ?_⟩
    · dsimp only
      split_ifs
      · exact discardWrittenData_reports s bytesWrote
      · exact .refl s
    · dsimp only
      split_ifs
      · rw [discardWrittenData]
        dsimp only
        split_ifs <;> rfl
      · rfl
  | error e =>
    cases e with
    | disconnected =>
      have hhangs : s.Hangs (.error .disconnected) := .inl rfl
      refine ⟨.of_pos hhangs ?_, fun _ => rfl, fun h => absurd hhangs h⟩
      refine onDisconnected_reports rfl ?_ rfl rfl rfl rfl
      exact (reports_sendEvent s.onDisconnected _).trans (by rw [if_pos rfl]; rfl)
    | other =>
      have hhangs : s.Hangs (.error .other) := .inr (.inl rfl)
      refine ⟨.of_pos hhangs ?_, fun _ => rfl, fun h => absurd hhangs h⟩
      refine onDisconnected_reports rfl ?_ rfl rfl rfl rfl
      dsimp only
      rw [reports_sendEvent, reports_sendEvent, if_neg (by decide), if_pos rfl]
      rfl
    | shutdown =>
      have hshut : Reports 0 s (s.onOutputShutdown.sendEvent .streamOutputShutdown) :=
        (onOutputShutdown_reports s).trans (sendEvent_reports (by decide))
      dsimp only
      by_cases hdown : s.readable = false ∧ s.inputBuffer.getSize = 0
      · have hhangs : s.Hangs (.error .shutdown) := .inr (.inr ⟨rfl, hdown⟩)
        rw [if_pos (by simpa [onOutputShutdown, sendEvent] using hdown)]
        refine ⟨.of_pos hhangs ?_, fun _ => hdown.1, fun h => absurd hhangs h⟩
        exact hshut.trans (loseConnection_reports hdown.1 hdown.2)
      · have hnot : ¬ s.Hangs (.error .shutdown) := by simpa [Hangs] using hdown
        rw [if_neg (by simpa [onOutputShutdown, sendEvent] using hdown)]
        exact ⟨.of_neg hnot hshut, fun h => absurd h hnot, fun _ => rfl⟩

lemma slurp_reports (hreadable : s.readable = true) (reads : List SocketRead) (buffer : List UInt8) :
    Reports 0 s (slurp reads s buffer).socket ∧ (slurp reads s buffer).socket.readable = true := by
  induction reads generalizing s buffer with
  | nil => exact ⟨.of_readable rfl rfl hreadable hreadable rfl rfl, hreadable⟩
  | cons read reads ih =>
    have hwrite : Reports 0 s { s with inputBuffer := s.inputBuffer.write buffer } :=
      .of_readable rfl rfl hreadable hreadable rfl rfl
    rw [slurp.eq_def]
    dsimp only
    split_ifs with hfull
    · exact ⟨hwrite, hreadable⟩
    · cases read with
      | error e => exact ⟨hwrite, hreadable⟩
      | ok bytes =>
        dsimp only
        split_ifs with hbytes
        · obtain ⟨hrest, hopen⟩ := ih (s := { s with inputBuffer := s.inputBuffer.write buffer }) hreadable bytes
          exact ⟨hwrite.trans hrest, hopen⟩
        · exact ⟨hwrite, hreadable⟩

lemma hangUp_reports (hplain : s.secure = false) (hconnected : s.connected = true) :
    ∃ k, Reports k s s.hangUp ∧ k ≤ 1 := by
  rw [hangUp]
  split_ifs with hlast
  · refine ⟨1, onDisconnected_reports rfl ?_ rfl rfl hlast.2 rfl, le_rfl⟩
    change ((s.sendEvent .streamInputShutdown).sendEvent .socketDisconnected).reports = _
    rw [reports_sendEvent, reports_sendEvent, if_neg (by decide), if_pos rfl]
  · refine ⟨0, ⟨rfl, ?_, Iff.symm (or_iff_left (lt_irrefl 0)), fun hs => ⟨?_, ?_, hs.plain⟩⟩, Nat.zero_le 1⟩
    · exact (reports_sendEvent s _).trans (by rw [if_neg (by decide)])
    · exact fun hlost => absurd (hlost.symm.trans hconnected) Bool.false_ne_true
    · rintro - (hlost | hsecure)
      · exact absurd (hlost.symm.trans hconnected) Bool.false_ne_true
      · exact absurd (hplain.symm.trans hsecure) Bool.false_ne_true

lemma Sound.connected (hs : s.Sound) (hreadable : s.readable = true) : s.connected = true := by
  cases hconnected : s.connected with
  | true => rfl
  | false => exact absurd ((hs.down hconnected).symm.trans hreadable) Bool.false_ne_true

lemma Sound.not_lost (hs : s.Sound) (hplain : s.secure = false) (hreadable : s.readable = true) : ¬ s.Lost := by
  rintro (hlost | hdisconnected)
  · exact absurd (hlost.symm.trans (hs.connected hreadable)) Bool.false_ne_true
  · exact absurd ((hs.plain hplain).symm.trans hdisconnected) Bool.false_ne_true

lemma serviceRead_tcp (hplain : s.secure = false) (hs : s.Sound) (hreadable : s.readable = true) (p : Pass) :
    ∃ k, Reports k s (s.serviceRead p).2.1 ∧ k ≤ 1 := by
  have hdoRead : ∃ k, Reports k s (s.doReadTcp p.reads).socket ∧
      (∀ e, (s.doReadTcp p.reads).result = .error e → k = 0) ∧ k ≤ 1 := by
    rw [doReadTcp]
    cases p.reads.headD (.ok []) with
    | error e => exact ⟨0, .refl s, fun _ _ => rfl, Nat.zero_le 1⟩
    | ok bytes =>
      dsimp only
      split_ifs with hbytes hempty
      · obtain ⟨hslurp, -⟩ := slurp_reports hreadable p.reads.tail bytes
        refine ⟨0, ?_, fun _ _ => rfl, Nat.zero_le 1⟩
        cases (slurp p.reads.tail s bytes).result with
        | error e => exact hslurp
        | ok result => exact hslurp.trans (sendEvent_reports (by decide))
      · obtain ⟨hslurp, -⟩ := slurp_reports hreadable p.reads.tail bytes
        refine ⟨0, ?_, fun _ _ => rfl, Nat.zero_le 1⟩
        cases (slurp p.reads.tail s bytes).result with
        | error e => exact hslurp
        | ok result => exact hslurp
      · obtain ⟨k, hk, hle⟩ := hangUp_reports hplain (hs.connected hreadable)
        exact ⟨k, hk, fun e he => absurd he (by simp), hle⟩
  rw [serviceRead, if_neg (by rw [hplain]; exact Bool.false_ne_true)]
  obtain ⟨k, hk, hthrown, hle⟩ := hdoRead
  dsimp only
  cases hresult : (s.doReadTcp p.reads).result with
  | ok result => exact ⟨k, hk, hle⟩
  | error e =>
    obtain rfl := hthrown e hresult
    cases e with
    | shutdown | other => exact ⟨0, hk, hle⟩
    | disconnected =>
      refine ⟨1, hk.trans (l := 1) ?_, le_rfl⟩
      refine onDisconnected_reports rfl ?_ rfl rfl rfl rfl
      exact (reports_sendEvent _ _).trans (by rw [if_pos rfl])

/-! ## Through TLS -/

structure Failed (s t : Socket) : Prop where
  reports : Reports 1 s t
  same : Undisturbed s t
  fatal : t.tls.fatal = true

structure Quiet (s t : Socket) : Prop where
  reports : Reports 0 s t
  same : Undisturbed s t
  fatal : t.tls.fatal = s.tls.fatal

structure Called (P : Prop) (s t : Socket) : Prop where
  failed (h : P) : Failed s t
  quiet (h : ¬ P) : Quiet s t

variable {P Q : Prop}

lemma Quiet.refl (s : Socket) : Quiet s s := ⟨.refl s, .refl s, rfl⟩

lemma Quiet.trans (h : Quiet s t) (h' : Quiet t u) : Quiet s u :=
  ⟨h.reports.trans h'.reports, h.same.trans h'.same, h'.fatal.trans h.fatal⟩

lemma Called.of_failed (hP : P) (h : Failed s t) : Called P s t := ⟨fun _ => h, fun hnot => absurd hP hnot⟩

lemma Called.of_quiet (hP : ¬ P) (h : Quiet s t) : Called P s t := ⟨fun hpos => absurd hpos hP, fun _ => h⟩

lemma Called.congr (h : Called P s t) (hiff : P ↔ Q) : Called Q s t :=
  ⟨fun hQ => h.failed (hiff.mpr hQ), fun hQ => h.quiet (hQ ∘ hiff.mp)⟩

lemma Called.before (h : Quiet s t) (h' : Called P t u) : Called P s u where
  failed hP := ⟨h.reports.trans (h'.failed hP).reports, h.same.trans (h'.failed hP).same, (h'.failed hP).fatal⟩
  quiet hP := h.trans (h'.quiet hP)

lemma Called.after (h : Called P s t) (h' : Quiet t u) : Called P s u where
  failed hP := ⟨(h.failed hP).reports.trans h'.reports, (h.failed hP).same.trans h'.same,
    h'.fatal.trans (h.failed hP).fatal⟩
  quiet hP := (h.quiet hP).trans h'

lemma Called.reports (h : Called P s t) : ReportsIf P s t :=
  ⟨fun hP => (h.failed hP).reports, fun hP => (h.quiet hP).reports⟩

lemma Called.secure (h : Called P s t) : t.secure = s.secure := by
  by_cases hP : P
  · exact (h.failed hP).reports.secure
  · exact (h.quiet hP).reports.secure

lemma checkResult_called (hsecure : s.secure = true) (error : Option SslError) (retry : ℕ) :
    Called (s.Fails error) s (s.checkResult error retry).1 := by
  obtain ⟨hsame, -⟩ := s.checkResult_undisturbed error retry
  cases hfatal : s.tls.fatal with
  | true =>
    obtain ⟨writable, hcheck⟩ := checkResult_of_fatal hfatal error retry
    rw [hcheck] at hsame ⊢
    have hwritable : Reports 0 s { s with writable := writable } := .of_same rfl rfl rfl rfl rfl rfl
    exact .of_failed (.inl hfatal) ⟨hwritable.trans (disconnect_reports hsecure), hsame, hfatal⟩
  | false =>
    cases error with
    | none =>
      rw [checkResult_none hfatal]
      exact .of_quiet (by simp [Fails, hfatal]) (.refl s)
    | some e =>
      cases he : e.retries with
      | true =>
        obtain ⟨writable, hcheck⟩ := checkResult_retries hfatal he retry
        rw [hcheck] at hsame ⊢
        exact .of_quiet (by simp [Fails, hfatal, he]) ⟨.of_same rfl rfl rfl rfl rfl rfl, hsame, rfl⟩
      | false =>
        rw [checkResult_fatal he] at hsame ⊢
        have hset : Reports 0 s s.setFatal := .of_same rfl rfl rfl rfl rfl rfl
        exact .of_failed (.inr ⟨e, rfl, he⟩) ⟨hset.trans (disconnect_reports hsecure), hsame, rfl⟩

lemma Called.fatal_iff {error : Option SslError} (h : Called (s.Fails error) s t) :
    t.tls.fatal = true ↔ s.Fails error := by
  by_cases hfails : s.Fails error
  · exact iff_of_true (h.failed hfails).fatal hfails
  · refine iff_of_false (fun hfatal => hfails (.inl ?_)) hfails
    rw [← (h.quiet hfails).fatal, hfatal]

lemma checkResult_retry (error : Option SslError) (retry : ℕ) (hfatal : (s.checkResult error retry).1.tls.fatal = true) :
    (s.checkResult error retry).2 = 0 := by
  rw [checkResult.eq_def] at hfatal ⊢
  dsimp only at hfatal ⊢
  split_ifs at hfatal ⊢ with h
  · rfl
  · exact absurd hfatal h

lemma secureRead_called (hsecure : s.secure = true) (hssl : s.tls.ssl = true) (result : SslRead) (buffer : List UInt8) :
    Called (s.Fails (errorOf result)) s (s.secureRead result buffer).socket ∧
      ((s.secureRead result buffer).status < 0 ↔ s.Fails (errorOf result)) ∧
        (0 < (s.secureRead result buffer).status → (s.secureRead result buffer).bytes ≠ []) := by
  have hcalled := checkResult_called hsecure (errorOf result) s.tls.secureReadRetry
  have hretry := checkResult_retry (s := s) (errorOf result) s.tls.secureReadRetry
  obtain ⟨bytes, hread⟩ : ∃ bytes : List UInt8, s.secureRead result buffer =
      let r := s.checkResult (errorOf result) s.tls.secureReadRetry
      ⟨if r.2 ≠ 0 then 0 else if r.1.tls.fatal then -1 else bytes.length, bytes,
        { r.1 with tls := { r.1.tls with secureReadRetry := r.2 } }⟩ := by
    rw [secureRead.eq_def, if_pos hssl]
    cases result with
    | ok bytes => exact ⟨bytes, rfl⟩
    | error e => exact ⟨[], rfl⟩
  rw [hread]
  dsimp only
  refine ⟨hcalled.after ⟨.of_same rfl rfl rfl rfl rfl rfl, ⟨rfl, rfl, rfl, rfl, rfl⟩, rfl⟩, ?_, ?_⟩
  · rw [← hcalled.fatal_iff]
    by_cases hfatal : (s.checkResult (errorOf result) s.tls.secureReadRetry).1.tls.fatal = true
    · simp [hretry hfatal, hfatal]
    · refine iff_of_false ?_ hfatal
      rw [if_neg hfatal, not_lt]
      split_ifs
      · exact le_rfl
      · exact Int.natCast_nonneg _
  · split_ifs
    · exact fun h => absurd h (lt_irrefl 0)
    · exact fun h => absurd h (by decide)
    · intro hpos hempty
      rw [hempty] at hpos
      exact lt_irrefl 0 hpos

lemma secureWrite_called (hsecure : s.secure = true) (hssl : s.tls.ssl = true) (result : SslWrite) :
    Called (s.Fails (errorOf result)) s (s.secureWrite result).2.2 := by
  have hcalled := checkResult_called hsecure (errorOf result) s.tls.secureWriteRetry
  rw [secureWrite.eq_def, if_pos hssl]
  cases result with
  | ok wrote => exact hcalled.after ⟨.of_same rfl rfl rfl rfl rfl rfl, ⟨rfl, rfl, rfl, rfl, rfl⟩, rfl⟩
  | error e => exact hcalled.after ⟨.of_same rfl rfl rfl rfl rfl rfl, ⟨rfl, rfl, rfl, rfl, rfl⟩, rfl⟩

lemma retryBuffer_quiet (s : Socket) : Quiet s s.retryBuffer.1 := by
  rw [retryBuffer]
  split_ifs
  · exact .refl s
  · exact ⟨.of_same rfl rfl rfl rfl rfl rfl, ⟨rfl, rfl, rfl, rfl, rfl⟩, rfl⟩

lemma discardWrittenData_quiet (s : Socket) (n : ℕ) : Quiet s (s.discardWrittenData n) := by
  refine ⟨discardWrittenData_reports s n, ?_, ?_⟩
  · rw [discardWrittenData]
    dsimp only
    split_ifs <;> exact ⟨rfl, rfl, rfl, rfl, rfl⟩
  · rw [discardWrittenData]
    dsimp only
    split_ifs <;> rfl

lemma doWriteSecure_called (hsecure : s.secure = true) (result : SslWrite) :
    Called (s.WriteFails result) s (s.doWriteSecure result).2 := by
  rw [doWriteSecure]
  cases hready : s.tls.secureReady with
  | false => exact .of_quiet (by simp [WriteFails, hready]) (.refl s)
  | true =>
    have hbuffer := retryBuffer_quiet s
    dsimp only
    rw [if_neg (by decide)]
    by_cases hempty : s.retryBuffer.2 = 0
    · rw [if_pos hempty]
      exact .of_quiet (by simp [WriteFails, hempty]) hbuffer
    · rw [if_neg hempty]
      have hwrite : Called (s.WriteFails result) s (s.retryBuffer.1.secureWrite result).2.2 := by
        cases hssl : s.tls.ssl with
        | false =>
          rw [secureWrite.eq_def, if_neg (by rw [hbuffer.same.ssl, hssl]; exact Bool.false_ne_true)]
          exact .of_quiet (by simp [WriteFails, hssl]) hbuffer
        | true =>
          have hcalled := secureWrite_called (hbuffer.reports.secure.trans hsecure) (hbuffer.same.ssl.trans hssl) result
          refine (Called.before hbuffer hcalled).congr ?_
          simp [WriteFails, Fails, hready, hssl, hempty, hbuffer.fatal]
      split_ifs
      · refine Called.after ?_ (discardWrittenData_quiet _ _)
        exact hwrite.after ⟨.of_same rfl rfl rfl rfl rfl rfl, ⟨rfl, rfl, rfl, rfl, rfl⟩, rfl⟩
      · exact hwrite.after ⟨.of_same rfl rfl rfl rfl rfl rfl, ⟨rfl, rfl, rfl, rfl, rfl⟩, rfl⟩
      · exact hwrite
      · exact hwrite.after ⟨.of_same rfl rfl rfl rfl rfl rfl, ⟨rfl, rfl, rfl, rfl, rfl⟩, rfl⟩

lemma Quiet.fails_iff (h : Quiet s t) (error : Option SslError) : t.Fails error ↔ s.Fails error := by
  rw [Fails, Fails, h.fatal]

lemma not_readsFail_nil (hfatal : s.tls.fatal = false) : ¬ s.ReadsFail [] := by simp [ReadsFail, hfatal]

lemma readsFail_cons (read : SslRead) (reads : List SslRead) :
    s.ReadsFail (read :: reads) ↔ s.Fails (errorOf read) ∨ s.ReadsFail reads := by
  simp only [ReadsFail, List.mem_cons, exists_eq_or_imp]
  exact or_left_comm

lemma Quiet.readsFail_iff (h : Quiet s t) (reads : List SslRead) : t.ReadsFail reads ↔ s.ReadsFail reads := by
  simp only [ReadsFail, h.fails_iff, h.fatal]

lemma slurpSecure_called (hsecure : s.secure = true) (hssl : s.tls.ssl = true) (hfatal : s.tls.fatal = false)
    (hreadable : s.readable = true) {reads : List SslRead} {buffer : List UInt8}
    (hleft : (slurpSecure id reads s buffer).2.2 = []) :
    Called (s.ReadsFail reads) s (slurpSecure id reads s buffer).2.1 := by
  induction reads generalizing s buffer with
  | nil =>
    have hnot := not_readsFail_nil hfatal
    have hwrite : Quiet s { s with inputBuffer := s.inputBuffer.write buffer } :=
      ⟨.of_readable rfl rfl hreadable hreadable rfl rfl, ⟨rfl, rfl, rfl, rfl, rfl⟩, rfl⟩
    rw [slurpSecure]
    by_cases hfull : maxInputBufferSize < (s.inputBuffer.write buffer).getSize
    · rw [if_pos hfull]
      exact .of_quiet hnot hwrite
    · rw [if_neg hfull]
      obtain ⟨hcalled, -⟩ := secureRead_called (s := { s with inputBuffer := s.inputBuffer.write buffer }) hsecure hssl
        (.error .wantRead) buffer
      exact .of_quiet hnot (hwrite.trans (hcalled.quiet (by simp [Fails, hfatal, errorOf, SslError.retries])))
  | cons read reads ih =>
    have hwrite : Quiet s { s with inputBuffer := s.inputBuffer.write buffer } :=
      ⟨.of_readable rfl rfl hreadable hreadable rfl rfl, ⟨rfl, rfl, rfl, rfl, rfl⟩, rfl⟩
    obtain ⟨hcalled, hstatus, -⟩ := secureRead_called (s := { s with inputBuffer := s.inputBuffer.write buffer }) hsecure
      hssl read buffer
    rw [hwrite.fails_iff] at hcalled hstatus
    have hread := Called.before hwrite hcalled
    rw [slurpSecure] at hleft ⊢
    simp only [id_eq] at hleft ⊢
    generalize ({ s with inputBuffer := s.inputBuffer.write buffer }.secureRead read buffer) = r at *
    by_cases hfull : maxInputBufferSize < (s.inputBuffer.write buffer).getSize
    · rw [if_pos hfull] at hleft
      exact absurd hleft (List.cons_ne_nil read reads)
    · rw [if_neg hfull] at hleft ⊢
      by_cases hfails : s.Fails (errorOf read)
      · rw [if_pos (hstatus.mpr hfails)]
        exact .of_failed ((readsFail_cons _ _).mpr (.inl hfails)) (hread.failed hfails)
      · have hquiet := hread.quiet hfails
        rw [if_neg (fun h => hfails (hstatus.mp h))] at hleft ⊢
        by_cases hmore : r.bytes ≠ [] ∨ 0 < r.status
        · rw [if_pos hmore] at hleft ⊢
          have hrest := ih (hquiet.reports.secure.trans hsecure) (hquiet.same.ssl.trans hssl)
            (hquiet.fatal.trans hfatal) (hquiet.same.readable.trans hreadable) hleft
          refine (Called.before hquiet hrest).congr ?_
          rw [readsFail_cons, hquiet.readsFail_iff, or_iff_right hfails]
        · rw [if_neg hmore] at hleft ⊢
          have hnot : ¬ s.ReadsFail (read :: reads) := by
            rw [readsFail_cons, show reads = [] from hleft, not_or]
            exact ⟨hfails, not_readsFail_nil hfatal⟩
          exact .of_quiet hnot hquiet

lemma readsFail_head (reads : List SslRead) : s.ReadsFail reads ↔
    s.Fails (errorOf ((reads.head?.map id).getD (.error .wantRead))) ∨ s.ReadsFail reads.tail := by
  cases reads with
  | nil => simp [ReadsFail, Fails, errorOf, SslError.retries]
  | cons read reads => exact readsFail_cons read reads

lemma doReadSecure_called (hsecure : s.secure = true) (hreadable : s.readable = true) {reads : List SslRead}
    (hleft : (s.doReadSecure id reads).2.2 = []) : Called (s.ReadFails reads) s (s.doReadSecure id reads).2.1 := by
  rw [doReadSecure] at hleft ⊢
  cases hready : s.tls.secureReady with
  | false => exact .of_quiet (by simp [ReadFails, hready]) (.refl s)
  | true =>
    rw [hready, if_neg (by decide)] at hleft
    rw [if_neg (by decide)]
    cases hssl : s.tls.ssl with
    | false =>
      have hidle (result : SslRead) : s.secureRead result [] = ⟨0, [], s⟩ := by
        rw [secureRead.eq_def, if_neg (by rw [hssl]; exact Bool.false_ne_true)]
        rfl
      dsimp only
      rw [hidle, if_neg (lt_irrefl 0), if_pos rfl]
      exact .of_quiet (by simp [ReadFails, hssl]) (.refl s)
    | true =>
      have hiff : s.ReadFails reads ↔ s.ReadsFail reads := by simp [ReadFails, hready, hssl]
      refine Called.congr ?_ hiff.symm
      rw [readsFail_head]
      rw [hssl, if_pos rfl] at hleft
      rw [if_pos rfl]
      obtain ⟨hcalled, hstatus, hsome⟩ :=
        secureRead_called hsecure hssl ((reads.head?.map id).getD (.error .wantRead)) []
      dsimp only at hleft ⊢
      generalize s.secureRead ((reads.head?.map id).getD (.error .wantRead)) [] = r at *
      generalize errorOf ((reads.head?.map id).getD (.error .wantRead)) = error at *
      by_cases hfails : s.Fails error
      · rw [if_pos (hstatus.mpr hfails)]
        exact .of_failed (.inl hfails) (hcalled.failed hfails)
      · have hquiet := hcalled.quiet hfails
        have hfatal : s.tls.fatal = false := Bool.eq_false_iff.mpr (fun h => hfails (.inl h))
        rw [or_iff_right hfails]
        rw [if_neg (fun h => hfails (hstatus.mp h))] at hleft ⊢
        by_cases hnone : r.status = 0
        · rw [if_pos hnone] at hleft ⊢
          rw [show reads.tail = [] from hleft]
          exact .of_quiet (not_readsFail_nil hfatal) hquiet
        · have hpos : 0 < r.status := by
            have : ¬ r.status < 0 := fun h => hfails (hstatus.mp h)
            omega
          rw [if_neg hnone, if_pos (hsome hpos)] at hleft ⊢
          have hslurp : (slurpSecure id reads.tail r.socket r.bytes).2.2 = [] →
              Called (s.ReadsFail reads.tail) s (slurpSecure id reads.tail r.socket r.bytes).2.1 := by
            intro hleft'
            have hrest := slurpSecure_called (hquiet.reports.secure.trans hsecure) (hquiet.same.ssl.trans hssl)
              (hquiet.fatal.trans hfatal) (hquiet.same.readable.trans hreadable) hleft'
            exact (Called.before hquiet hrest).congr (hquiet.readsFail_iff _)
          by_cases hbroken : (slurpSecure id reads.tail r.socket r.bytes).1 = .kBreak
          · rw [if_pos hbroken] at hleft ⊢
            exact hslurp hleft
          · rw [if_neg hbroken] at hleft ⊢
            dsimp only at hleft ⊢
            split_ifs
            · exact (hslurp hleft).after ⟨sendEvent_reports (by decide), ⟨rfl, rfl, rfl, rfl, rfl⟩, rfl⟩
            · exact hslurp hleft

lemma setReady_reports (s : Socket) (ready : Bool) : Reports 0 s { s with tls := { s.tls with secureReady := ready } } :=
  .of_same rfl rfl rfl rfl rfl rfl

lemma checkResult_retry_iff {error : Option SslError} (hfails : ¬ s.Fails error) :
    0 < (s.checkResult error 0).2 ↔ error ≠ none := by
  have hfatal : s.tls.fatal = false := Bool.eq_false_iff.mpr (fun h => hfails (.inl h))
  cases error with
  | none => simp [checkResult_none hfatal]
  | some e =>
    have he : e.retries = true := by
      cases he : e.retries with
      | true => rfl
      | false => exact absurd (.inr ⟨e, rfl, he⟩) hfails
    obtain ⟨writable, hcheck⟩ := checkResult_retries hfatal he 0
    simp [hcheck]

lemma secureHandshake_reports (hsecure : s.secure = true) (h : Handshake) (result : Option SslError) (trusted : Bool) :
    ReportsIf (s.HandshakeFails h result trusted) s (s.secureHandshake h result trusted).2 := by
  have hcalled := checkResult_called hsecure result 0
  rw [secureHandshake]
  dsimp only
  by_cases hfails : s.Fails result
  · have hreports := (hcalled.failed hfails).reports
    rw [if_pos (hcalled.fatal_iff.mpr hfails)]
    refine .of_pos (.inl hfails) ?_
    cases h with
    | connect => exact hreports
    | accept authenticated => exact Reports.trans hreports (setReady_reports _ false)
  · have hreports := (hcalled.quiet hfails).reports
    have hready := hreports.trans (setReady_reports _ true)
    have hlost {t : Socket} (h : Reports 0 s t) := h.trans (disconnect_reports (h.secure.trans hsecure))
    rw [if_neg (fun hfatal => hfails (hcalled.fatal_iff.mp hfatal))]
    by_cases hdone : result = none
    · rw [if_neg (fun hpos => (checkResult_retry_iff hfails).mp hpos hdone)]
      cases h with
      | connect =>
        cases trusted with
        | false => exact .of_pos (.inr ⟨hdone, rfl, by decide⟩) (hlost hready)
        | true => exact .of_neg (by simp [HandshakeFails, hfails]) hready
      | accept authenticated =>
        cases authenticated with
        | false => exact .of_neg (by simp [HandshakeFails, hfails]) hready
        | true =>
          cases trusted with
          | false => exact .of_pos (.inr ⟨hdone, rfl, by decide⟩) (hlost hreports)
          | true => exact .of_neg (by simp [HandshakeFails, hfails]) hready
    · rw [if_pos ((checkResult_retry_iff hfails).mpr hdone)]
      refine .of_neg (by simp [HandshakeFails, hfails, hdone]) ?_
      exact Reports.trans hreports (setReady_reports _ false)

lemma serviceHandshake_reports (hsecure : s.secure = true) (hsocket : s.socket = true) (h : Handshake)
    (result : Option SslError) (trusted : Bool) :
    ReportsIf (s.HandshakeFails h result trusted) s (s.serviceHandshake h result trusted).2 := by
  have hreports := secureHandshake_reports hsecure h result trusted
  rw [serviceHandshake.eq_def, if_neg (by simp [hsocket])]
  dsimp only
  split_ifs
  · exact hreports
  · refine hreports.after (sendEvent_reports ?_)
    cases h <;> simp
  · exact hreports

/-! ## A pass -/

def passWrite (s : Socket) (p : Pass) : Socket := if p.write then (s.serviceWrite p).2 else s

def passRead (s : Socket) (p : Pass) : Socket × List SslRead :=
  if p.read && s.readable then (s.serviceRead p).2 else (s, p.sslReads)

lemma serviceConnected_snd (hsocket : s.socket = true) {p : Pass} (herror : p.error = false) :
    (s.serviceConnected p).2 = (s.passWrite p).passRead p := by
  rw [serviceConnected, if_neg (by simp [hsocket]), if_neg (by simp [herror]), passRead, passWrite]
  cases p.write with
  | false =>
    simp only [Bool.false_eq_true, if_false]
    split_ifs <;> rfl
  | true =>
    simp only [if_true]
    split_ifs <;> rfl

lemma passWrite_called (hsecure : s.secure = true) (p : Pass) :
    Called (p.write = true ∧ s.WriteFails p.sslWrote) s (s.passWrite p) := by
  rw [passWrite]
  cases p.write with
  | false => exact .of_quiet (by simp) (.refl s)
  | true =>
    rw [if_pos rfl, serviceWrite.eq_def, if_pos hsecure]
    exact (doWriteSecure_called hsecure p.sslWrote).congr (by simp)

lemma passRead_called (hsecure : s.secure = true) {p : Pass} (hleft : (s.passRead p).2 = []) :
    Called ((p.read && s.readable) = true ∧ s.ReadFails p.sslReads) s (s.passRead p).1 := by
  rw [passRead] at hleft ⊢
  by_cases hread : (p.read && s.readable) = true
  · rw [if_pos hread, serviceRead.eq_def, if_pos hsecure] at hleft ⊢
    have hreadable : s.readable = true := (Bool.and_eq_true_iff.mp hread).2
    exact (doReadSecure_called hsecure hreadable hleft).congr (by simp [hread])
  · rw [if_neg hread]
    exact .of_quiet (fun h => hread h.1) (.refl s)

lemma servicePass_secure (hsecure : s.secure = true) {p : Pass} (herror : p.error = false)
    (hleft : ((s.passWrite p).passRead p).2 = []) :
    ∃ k, Reports k s ((s.passWrite p).passRead p).1 ∧ (s.Admissible k ↔ s.PassMeets p) := by
  have hwrite := passWrite_called hsecure p
  have hread := passRead_called (hwrite.secure.trans hsecure) hleft
  have hbreaks : s.Breaks p ↔ p.write = true ∧ s.WriteFails p.sslWrote ∨
      (p.read && s.readable) = true ∧ s.ReadFails p.sslReads := by simp [Breaks, herror, hsecure]
  rw [PassMeets, hbreaks]
  by_cases hwfails : p.write = true ∧ s.WriteFails p.sslWrote
  · have hfailed := hwrite.failed hwfails
    rw [hfailed.same.readable] at hread
    by_cases hreads : (p.read && s.readable) = true
    · have hfails : (s.passWrite p).ReadFails p.sslReads :=
        ⟨hfailed.same.secureReady.trans hwfails.2.1, hfailed.same.ssl.trans hwfails.2.2.1, .inl hfailed.fatal⟩
      refine ⟨2, hfailed.reports.trans (hread.failed ⟨hreads, hfails⟩).reports, iff_of_false ?_ ?_⟩
      · simp [Admissible]
      · intro hmeets
        exact absurd ((hmeets.2 hsecure herror hwfails).symm.trans hreads) Bool.false_ne_true
    · refine ⟨1, hfailed.reports.trans (hread.quiet (fun h => hreads h.1)).reports, ?_⟩
      rw [admissible_one]
      simp [hwfails, hreads]
  · have hquiet := hwrite.quiet hwfails
    have hsame : (s.passWrite p).ReadFails p.sslReads ↔ s.ReadFails p.sslReads := by
      rw [ReadFails, ReadFails, hquiet.same.secureReady, hquiet.same.ssl, hquiet.readsFail_iff]
    rw [hquiet.same.readable, hsame] at hread
    by_cases hrfails : (p.read && s.readable) = true ∧ s.ReadFails p.sslReads
    · refine ⟨1, hquiet.reports.trans (hread.failed hrfails).reports, ?_⟩
      rw [admissible_one]
      simp [hwfails, hrfails]
    · refine ⟨0, hquiet.reports.trans (hread.quiet hrfails).reports, iff_of_true (.inl rfl) ?_⟩
      exact ⟨fun h => absurd h (not_or.mpr ⟨hwfails, hrfails⟩), fun _ _ h => absurd h hwfails⟩

lemma servicePass_tcp (hplain : s.secure = false) (hs : s.Sound) {p : Pass} (herror : p.error = false) :
    ∃ k, Reports k s ((s.passWrite p).passRead p).1 ∧ (s.Admissible k ↔ s.PassMeets p) := by
  have hmeets : s.PassMeets p ↔ (p.write = true ∧ s.Hangs p.wrote → ¬ s.Lost) := by
    simp [PassMeets, Breaks, herror, hplain]
  rw [hmeets]
  by_cases hhangs : p.write = true ∧ s.Hangs p.wrote
  · obtain ⟨hreports, hdown, -⟩ := serviceWrite_tcp hplain p
    have hwrite : s.passWrite p = (s.serviceWrite p).2 := if_pos hhangs.1
    refine ⟨1, ?_, ?_⟩
    · rw [hwrite, passRead, if_neg (by simp [hdown hhangs.2])]
      exact hreports.once hhangs.2
    · rw [admissible_one]
      simp [hhangs]
  · have hwrite : Reports 0 s (s.passWrite p) ∧ (s.passWrite p).readable = s.readable := by
      rw [passWrite]
      split_ifs with hwrites
      · obtain ⟨hreports, -, hsame⟩ := serviceWrite_tcp hplain p
        have hnot : ¬ s.Hangs p.wrote := fun h => hhangs ⟨hwrites, h⟩
        exact ⟨hreports.never hnot, hsame hnot⟩
      · exact ⟨.refl s, rfl⟩
    rw [passRead]
    by_cases hreads : (p.read && (s.passWrite p).readable) = true
    · have hreadable : (s.passWrite p).readable = true := (Bool.and_eq_true_iff.mp hreads).2
      obtain ⟨k, hk, hle⟩ := serviceRead_tcp (hwrite.1.secure.trans hplain) (hwrite.1.sound hs) hreadable p
      rw [if_pos hreads]
      refine ⟨0 + k, hwrite.1.trans hk, iff_of_true ?_ (fun h => absurd h hhangs)⟩
      have hheld := hs.not_lost hplain (hwrite.2.symm.trans hreadable)
      rw [Nat.zero_add]
      exact (Nat.le_one_iff_eq_zero_or_eq_one.mp hle).imp id (fun hone => ⟨hone, hheld⟩)
    · rw [if_neg hreads]
      exact ⟨0, hwrite.1, iff_of_true (.inl rfl) (fun h => absurd h hhangs)⟩

lemma serviceConnected_reports (hs : s.Sound) (hsocket : s.socket = true) {p : Pass}
    (hleft : (s.serviceConnected p).2.2 = []) :
    ∃ k, Reports k s (s.serviceConnected p).2.1 ∧ (s.Admissible k ↔ s.PassMeets p) := by
  cases herror : p.error with
  | true =>
    rw [serviceConnected, if_neg (by simp [hsocket]), if_pos herror]
    refine ⟨1, onDisconnected_reports rfl ?_ rfl rfl rfl rfl, ?_⟩
    · exact (reports_sendEvent s _).trans (by rw [if_pos rfl])
    · rw [admissible_one]
      simp [PassMeets, Breaks, herror]
  | false =>
    rw [serviceConnected_snd hsocket herror] at hleft ⊢
    cases hsecure : s.secure with
    | true => exact servicePass_secure hsecure herror hleft
    | false => exact servicePass_tcp hsecure hs herror

structure Counted (s : Socket) : Prop where
  sound : s.Sound
  lost : s.reports = 0 ↔ ¬ s.Lost

lemma Counted.after (h : Counted s) (hk : Reports k s t) : Counted t where
  sound := hk.sound h.sound
  lost := by
    rw [hk.count, hk.lost, Nat.add_eq_zero_iff, h.lost, not_or, not_lt, Nat.le_zero]

lemma Counted.once_iff (h : Counted s) (hk : Reports k s t) : t.reports ≤ 1 ↔ s.reports ≤ 1 ∧ s.Admissible k := by
  rw [hk.count, Admissible, ← h.lost]
  omega

lemma new_counted (secure : Bool) : Counted (.new secure) where
  sound := ⟨fun h => absurd h.symm Bool.false_ne_true, fun h => absurd h.symm Bool.false_ne_true, fun _ => rfl⟩
  lost := by simp [reports, Lost, new, Tls.new]

end Socket

namespace Connection

variable {c t : Connection}

lemma continued_socket (c : Connection) (s : Socket) (result : Continued) : (c.continued s result).socket = s := by
  cases result <;> rfl

lemma next_service {p : Pass} (ht : c.next (.service p) = some t) :
    (c.socket.serviceConnected p).2.2 = [] ∧ t.socket = (c.socket.serviceConnected p).2.1 := by
  rw [next.eq_def] at ht
  dsimp only at ht
  split at ht
  · split_ifs at ht with hleft
    obtain rfl := Option.some.inj ht
    exact ⟨not_not.mp hleft, continued_socket _ _ _⟩
  · exact absurd ht.symm (Option.some_ne_none t)

lemma next_handshake {h : Handshake} {result : Option SslError} {trusted : Bool}
    (ht : c.next (.handshake h result trusted) = some t) :
    c.socket.secure = true ∧ t.socket = (c.socket.serviceHandshake h result trusted).2 := by
  rw [next.eq_def] at ht
  dsimp only at ht
  split at ht
  · split_ifs at ht with hsecure
    obtain rfl := Option.some.inj ht
    exact ⟨hsecure.1, continued_socket _ _ _⟩
  · exact absurd ht.symm (Option.some_ne_none t)

def Tells (c : Connection) (e : ConnectionStep) (u : Socket) : Prop :=
  ∃ k, Socket.Reports k c.socket u ∧ (c.socket.Admissible k ↔ c.Meets e)

lemma tells_nothing {e : ConnectionStep} {u : Socket} (h : Socket.Reports 0 c.socket u) (hmeets : c.Meets e) :
    c.Tells e u := ⟨0, h, iff_of_true (.inl rfl) hmeets⟩

lemma some_of_ite {p : Prop} [Decidable p] {d : Connection} (ht : (if p then some d else none) = some t) : t = d := by
  rw [Option.ite_none_right_eq_some] at ht
  exact (Option.some.inj ht.2).symm

lemma closeLocked_tells : c.Tells .closeLocked c.socket.close := by
  refine ⟨_, Socket.close_reports c.socket, ?_⟩
  rw [Meets]
  cases hconnected : c.socket.connected with
  | true =>
    rw [if_pos rfl, Socket.admissible_one, Socket.Lost, hconnected]
    simp
  | false => exact iff_of_true (.inl rfl) (fun h => absurd h Bool.false_ne_true)

lemma service_tells (hs : c.socket.Sound) {p : Pass} (ht : c.next (.service p) = some t) :
    c.Tells (.service p) t.socket := by
  obtain ⟨hleft, hsocket⟩ := next_service ht
  rw [hsocket]
  by_cases hopen : c.socket.socket = true
  · obtain ⟨k, hk, hadmissible⟩ := Socket.serviceConnected_reports hs hopen hleft
    exact ⟨k, hk, hadmissible.trans ⟨fun h _ => h, fun h => h hopen⟩⟩
  · rw [Socket.serviceConnected, if_pos (by simpa using hopen)]
    exact tells_nothing (.refl _) fun h => absurd h hopen

lemma handshake_tells {h : Handshake} {result : Option SslError} {trusted : Bool}
    (ht : c.next (.handshake h result trusted) = some t) : c.Tells (.handshake h result trusted) t.socket := by
  obtain ⟨hsecure, hsocket⟩ := next_handshake ht
  rw [hsocket]
  by_cases hopen : c.socket.socket = true
  · have hreports := Socket.serviceHandshake_reports hsecure hopen h result trusted
    by_cases hfails : c.socket.HandshakeFails h result trusted
    · refine ⟨1, hreports.once hfails, ?_⟩
      rw [Socket.admissible_one]
      exact ⟨fun hheld _ _ => hheld, fun hmeets => hmeets hopen hfails⟩
    · exact tells_nothing (hreports.never hfails) fun _ hmet => absurd hmet hfails
  · rw [Socket.serviceHandshake.eq_def, if_pos (by simpa using hopen)]
    exact tells_nothing (.refl _) fun hsome => absurd hsome hopen

lemma next_reports (hs : c.socket.Sound) {e : ConnectionStep} (ht : c.next e = some t) : c.Tells e t.socket := by
  cases e with
  | read n =>
    obtain rfl := Option.some.inj ht
    obtain ⟨k, hk, hadmissible⟩ := Socket.read_reports hs n
    exact ⟨k, hk, iff_of_true hadmissible trivial⟩
  | write data =>
    obtain rfl := Option.some.inj ht
    exact tells_nothing (Socket.write_reports c.socket data) trivial
  | shutdownInput =>
    obtain rfl := Option.some.inj ht
    exact tells_nothing (Socket.shutdownInput_reports c.socket) trivial
  | shutdownOutput =>
    obtain rfl := Option.some.inj ht
    exact tells_nothing (Socket.shutdownOutput_reports c.socket) trivial
  | makeJob | setJob | secure | closeRemove =>
    obtain rfl := some_of_ite ht
    exact tells_nothing (.refl _) trivial
  | closeFatal | closeFree =>
    obtain rfl := some_of_ite ht
    exact tells_nothing (.of_same rfl rfl rfl rfl rfl rfl) trivial
  | closeLocked =>
    obtain rfl := some_of_ite ht
    exact closeLocked_tells
  | service p => exact service_tells hs ht
  | handshake h result trusted => exact handshake_tells ht

/-- In any order of steps the loss of a connection is reported at most once, exactly if each step that meets it is the
first to. -/
theorem lost_once_iff (secure : Bool) (es : List ConnectionStep) (c : Connection)
    (hrun : runFrom next es (new secure) = some c) : c.socket.reports ≤ 1 ↔ Along next Meets es (new secure) := by
  have hinv (c : Connection) (e : ConnectionStep) (t : Connection) (hc : c.socket.Counted) (ht : c.next e = some t) :
      t.socket.Counted := by
    obtain ⟨k, hk, -⟩ := next_reports hc.sound ht
    exact hc.after hk
  have hstep (c : Connection) (e : ConnectionStep) (t : Connection) (hc : c.socket.Counted) (ht : c.next e = some t) :
      t.socket.reports ≤ 1 ↔ c.socket.reports ≤ 1 ∧ c.Meets e := by
    obtain ⟨k, hk, hmeets⟩ := next_reports hc.sound ht
    rw [hc.once_iff hk, hmeets]
  rw [iff_along (P := fun c => c.socket.reports ≤ 1) hinv hstep (Socket.new_counted secure) hrun]
  exact and_iff_right (Nat.zero_le 1)

def closeSteps : List ConnectionStep := [.closeFatal, .closeFree, .closeRemove, .closeLocked]

theorem lost_once_closed : ∃ c, runFrom next closeSteps (new true) = some c ∧
    (c.socket.reports ≤ 1 ↔ Along next Meets closeSteps (new true)) :=
  ⟨_, rfl, lost_once_iff true closeSteps _ rfl⟩

/-- The peer ends the input, and the connection is closed then. -/
theorem lost_twice : ¬ ∀ (secure : Bool) (es : List ConnectionStep) (c : Connection),
    runFrom next es (new secure) = some c → c.socket.reports ≤ 1 := by
  intro hall
  have honce := hall true ([.secure, .handshake (.accept false) none true,
    .service ⟨true, false, false, .ok 0, [], .ok 0, [.error .zeroReturn]⟩] ++ closeSteps) _ rfl
  exact absurd honce (by decide)

end Connection

end InputLeap.Net
