import InputLeap.Lib.Reachable
import InputLeap.Net.Socket

/-! What is written to a `SecureSocket` goes out through TLS. While a write is retried new data is appended behind what
is being retried. -/

namespace InputLeap.Net

open InputLeap.Lib InputLeap.Io

structure Output where
  socket : Socket
  /-- Ghost: the data that `write` has taken. -/
  written : List UInt8
  /-- Ghost: the bytes that `SSL_write` has accepted. -/
  accepted : List UInt8

inductive OutputStep
  | handshake
  | write (data : List UInt8)
  | doWrite (result : SslWrite)

namespace Output

/-- The bytes that `SSL_write` is called with, if it is. -/
def handed (s : Socket) : List UInt8 :=
  if s.tls.secureReady ∧ s.tls.ssl then s.retryBuffer.1.tls.doWriteRetryBuffer.take s.retryBuffer.2 else []

/-- `SSL_write` succeeds, on some of the bytes at least, or asks for a retry. Their number is passed as an `int`. -/
def allows (s : Socket) : SslWrite → Bool
  | .ok wrote => decide ((handed s).length < 2 ^ 31 ∧ 0 < wrote ∧ wrote ≤ (handed s).length)
  | .error e => decide ((handed s).length < 2 ^ 31) && e.retries

def next (o : Output) : OutputStep → Option Output
  | .handshake => some { o with socket := { o.socket with tls := { o.socket.tls with secureReady := true } } }
  | .write data =>
    if data.length < 2 ^ 32 then
      some { o with
        socket := (o.socket.write data).1
        written := if o.socket.writable then o.written ++ data else o.written }
    else none
  | .doWrite result =>
    if allows o.socket result then
      some { o with
        socket := (o.socket.doWriteSecure result).2
        accepted := o.accepted ++ (handed o.socket).take (result.toOption.getD 0) }
    else none

def Initial (o : Output) : Prop := o = ⟨.new true, [], []⟩

def Kept (o : Output) : Prop := o.accepted ++ o.socket.outputBuffer.toList = o.written

/-- The bytes in the chunks of the buffer never come to more than it can count. -/
def Fits (o : Output) : OutputStep → Prop
  | .write data => o.socket.outputBuffer.stored + data.length < 2 ^ 32
  | _ => True

/-- A write that is retried is one of the bytes that the output buffer begins with. -/
structure Inv (o : Output) : Prop where
  kept : o.Kept
  ssl : o.socket.tls.ssl = true
  fatal : o.socket.tls.fatal = false
  count : o.socket.outputBuffer.stored < 2 ^ 32
  retrySize : o.socket.tls.doWriteRetry = true →
    o.socket.tls.doWriteRetrySize ≤ o.socket.outputBuffer.toList.length
  retryBuffer : o.socket.tls.doWriteRetry = true →
    o.socket.tls.doWriteRetryBuffer.take o.socket.tls.doWriteRetrySize =
      o.socket.outputBuffer.toList.take o.socket.tls.doWriteRetrySize

section Step

variable {s : Socket} {o : Output}

lemma write_output (s : Socket) (data : List UInt8) :
    (s.write data).1.tls = s.tls ∧ (s.write data).1.writable = s.writable ∧
      (s.write data).1.outputBuffer = if s.writable then s.outputBuffer.write data else s.outputBuffer := by
  rw [Socket.write]
  cases hwritable : s.writable with
  | false => exact ⟨rfl, hwritable, rfl⟩
  | true =>
    by_cases hdata : data = []
    · simp [hdata, hwritable, StreamBuffer.write]
    · simp [hdata]

/-- What is handed to TLS, whether for the first time or again. -/
lemma retryBuffer_spec (hcount : s.outputBuffer.stored < 2 ^ 32)
    (hsize : s.tls.doWriteRetry = true → s.tls.doWriteRetrySize ≤ s.outputBuffer.toList.length)
    (hbuffer : s.tls.doWriteRetry = true →
      s.tls.doWriteRetryBuffer.take s.tls.doWriteRetrySize = s.outputBuffer.toList.take s.tls.doWriteRetrySize) :
    s.retryBuffer.1.outputBuffer.toList = s.outputBuffer.toList ∧
      s.retryBuffer.1.outputBuffer.stored = s.outputBuffer.stored ∧
      s.retryBuffer.2 ≤ s.outputBuffer.toList.length ∧
      s.retryBuffer.1.tls.doWriteRetryBuffer.take s.retryBuffer.2 = s.outputBuffer.toList.take s.retryBuffer.2 ∧
      s.retryBuffer.1.tls.ssl = s.tls.ssl ∧ s.retryBuffer.1.tls.fatal = s.tls.fatal ∧
      (s.retryBuffer.1.tls.doWriteRetry = true → s.retryBuffer.1.tls.doWriteRetrySize = s.retryBuffer.2) := by
  rw [Socket.retryBuffer]
  split_ifs with hretry
  · exact ⟨rfl, rfl, hsize hretry, hbuffer hretry, rfl, rfl, fun _ => rfl⟩
  · have hsame : s.outputBuffer.getSize = s.outputBuffer.toList.length := by
      rw [StreamBuffer.getSize, s.outputBuffer.size_eq]
      exact Nat.mod_eq_of_lt (s.outputBuffer.toList_length_le.trans_lt hcount)
    have hpeek := s.outputBuffer.peek_fst hsame.le
    refine ⟨StreamBuffer.toList_peek _ _, StreamBuffer.stored_peek _ _, hsame.le, ?_, rfl, rfl,
      fun htrue => absurd htrue hretry⟩
    dsimp only
    rw [hpeek, List.take_append_of_le_length (by rw [List.length_take, hsame, min_self]), List.take_take, min_self]

lemma secureWrite_ok (hssl : s.tls.ssl = true) (hfatal : s.tls.fatal = false) (wrote : ℕ) :
    s.secureWrite (.ok wrote) = ((wrote : ℤ), wrote, { s with tls := { s.tls with secureWriteRetry := 0 } }) := by
  rw [Socket.secureWrite, if_pos hssl]
  dsimp only
  rw [Socket.checkResult_none hfatal]
  simp [hfatal]

lemma secureWrite_retries (hssl : s.tls.ssl = true) (hfatal : s.tls.fatal = false) {e : SslError}
    (he : e.retries = true) : ∃ writable retry, s.secureWrite (.error e) =
      (0, 0, { s with writable := writable, tls := { s.tls with secureWriteRetry := retry } }) := by
  obtain ⟨writable, hcheck⟩ := Socket.checkResult_retries hfatal he s.tls.secureWriteRetry
  refine ⟨writable, s.tls.secureWriteRetry + 1, ?_⟩
  rw [Socket.secureWrite, if_pos hssl]
  dsimp only
  rw [hcheck]
  simp

lemma toList_discard (hcount : s.outputBuffer.stored < 2 ^ 32) (n : ℕ) :
    (s.discardWrittenData n).outputBuffer.toList = s.outputBuffer.toList.drop n ∧
      (s.discardWrittenData n).outputBuffer.stored ≤ s.outputBuffer.stored ∧ (s.discardWrittenData n).tls = s.tls := by
  have hpop : (s.outputBuffer.pop n).toList = s.outputBuffer.toList.drop n := by
    rw [StreamBuffer.toList_pop hcount, Nat.mod_eq_of_lt (s.outputBuffer.toList_length_le.trans_lt hcount)]
    split_ifs with hn
    · exact (List.drop_eq_nil_of_le hn).symm
    · rfl
  have hstored := s.outputBuffer.stored_pop_le n
  rw [Socket.discardWrittenData]
  dsimp only
  split_ifs
  · exact ⟨hpop, hstored, rfl⟩
  · exact ⟨hpop, hstored, rfl⟩

lemma Inv.write (h : Inv o) {data : List UInt8} (hfits : Fits o (.write data)) {t : Output}
    (ht : o.next (.write data) = some t) : Inv t := by
  obtain ⟨htls, -, hbuffer⟩ := write_output o.socket data
  by_cases hlength : data.length < 2 ^ 32
  · rw [next, if_pos hlength] at ht
    obtain rfl := Option.some.inj ht
    cases hw : o.socket.writable with
    | false =>
      have hsame : (o.socket.write data).1.outputBuffer = o.socket.outputBuffer := hbuffer.trans (if_neg (by simp [hw]))
      constructor <;> simp only [Kept, htls, hsame]
      · exact h.kept
      · exact h.ssl
      · exact h.fatal
      · exact h.count
      · exact h.retrySize
      · exact h.retryBuffer
    | true =>
      have happend : (o.socket.write data).1.outputBuffer = o.socket.outputBuffer.write data := hbuffer.trans (if_pos hw)
      constructor <;> simp only [Kept, htls, happend, StreamBuffer.toList_write, StreamBuffer.stored_write]
      · exact (List.append_assoc _ _ _).symm.trans (congrArg (· ++ data) h.kept)
      · exact h.ssl
      · exact h.fatal
      · exact hfits
      · intro hretry
        exact (h.retrySize hretry).trans (by simp)
      · intro hretry
        rw [h.retryBuffer hretry, List.take_append_of_le_length (h.retrySize hretry)]
  · rw [next, if_neg hlength] at ht
    exact absurd ht.symm (Option.some_ne_none _)

lemma Inv.doWrite (h : Inv o) {result : SslWrite} {t : Output} (ht : o.next (.doWrite result) = some t) : Inv t := by
  rw [next] at ht
  split_ifs at ht with hallows
  obtain rfl := Option.some.inj ht
  obtain ⟨hlist, hstored, hle, htake, hssl, hfatal, hretry⟩ := retryBuffer_spec h.count h.retrySize h.retryBuffer
  rw [Socket.doWriteSecure]
  cases hready : o.socket.tls.secureReady with
  | false =>
    have hhanded : handed o.socket = [] := by simp [handed, hready]
    simpa [hhanded] using h
  | true =>
    have hhanded : handed o.socket = o.socket.outputBuffer.toList.take o.socket.retryBuffer.2 := by
      rw [handed, if_pos ⟨hready, h.ssl⟩, htake]
    rw [hhanded]
    rw [allows.eq_def, hhanded] at hallows
    generalize o.socket.retryBuffer = prepared at *
    obtain ⟨s, bufferSize⟩ := prepared
    dsimp only at hlist hstored hle htake hssl hfatal hretry ⊢
    rw [← hlist] at hle htake hallows ⊢
    rw [h.ssl] at hssl
    rw [h.fatal] at hfatal
    have hkept : o.accepted ++ s.outputBuffer.toList = o.written := hlist ▸ h.kept
    have hcount : s.outputBuffer.stored < 2 ^ 32 := hstored.trans_lt h.count
    rw [if_neg (by simp)]
    by_cases hempty : bufferSize = 0
    · rw [if_pos hempty]
      refine ⟨?_, hssl, hfatal, hcount, fun htrue => ?_, fun htrue => ?_⟩
      · simpa [Kept, hempty] using hkept
      · exact (hretry htrue).trans_le hle
      · exact (hretry htrue).symm ▸ htake
    · rw [if_neg hempty]
      cases result with
      | ok wrote =>
        obtain ⟨-, hpos, hwrote⟩ := of_decide_eq_true hallows
        rw [List.length_take, min_eq_left hle] at hwrote
        rw [secureWrite_ok hssl hfatal]
        dsimp only
        rw [if_pos (by exact_mod_cast hpos), if_pos hpos]
        obtain ⟨hdrop, hless, htls⟩ := toList_discard (s := { s with
          tls := { s.tls with secureWriteRetry := 0, doWriteRetry := false } }) hcount wrote
        refine ⟨?_, ?_, ?_, ?_, fun htrue => ?_, fun htrue => ?_⟩
        · dsimp only [Kept]
          rw [hdrop, Except.toOption, Option.getD_some, List.take_take, min_eq_left hwrote, List.append_assoc,
            List.take_append_drop]
          exact hkept
        · exact (congrArg Tls.ssl htls).trans hssl
        · exact (congrArg Tls.fatal htls).trans hfatal
        · exact hless.trans_lt hcount
        · exact absurd ((congrArg Tls.doWriteRetry htls).symm.trans htrue) Bool.false_ne_true
        · exact absurd ((congrArg Tls.doWriteRetry htls).symm.trans htrue) Bool.false_ne_true
      | error e =>
        obtain ⟨-, he⟩ := Bool.and_eq_true_iff.mp hallows
        obtain ⟨writable, retry, hwrite⟩ := secureWrite_retries hssl hfatal he
        rw [hwrite]
        dsimp only
        rw [if_neg (lt_irrefl 0), if_neg (lt_irrefl 0)]
        refine ⟨?_, hssl, hfatal, hcount, fun _ => hle, fun _ => htake⟩
        simpa [Kept, Except.toOption] using hkept

lemma Inv.next (h : Inv o) {e : OutputStep} (hfits : Fits o e) {t : Output} (ht : o.next e = some t) : Inv t := by
  cases e with
  | handshake =>
    obtain rfl := Option.some.inj ht
    exact ⟨h.kept, h.ssl, h.fatal, h.count, h.retrySize, h.retryBuffer⟩
  | write data => exact h.write hfits ht
  | doWrite result => exact h.doWrite ht

end Step

lemma initial_inv {o : Output} (h : Initial o) : Inv o := by
  obtain rfl := h
  exact ⟨rfl, rfl, rfl, by decide, fun h => absurd h Bool.false_ne_true, fun h => absurd h Bool.false_ne_true⟩

/-- What TLS has accepted and what is in the output buffer make up what was written, at any time in which the buffer
can count its bytes. -/
theorem output_kept {o : Output} (h : Reachable Initial next Fits o) : o.Kept :=
  (h.invariant (I := Inv) (fun _ => initial_inv) fun _ _ _ hinv hfits hnext => hinv.next hfits hnext).kept

instance (o : Output) : (e : OutputStep) → Decidable (o.Fits e)
  | .write _ => inferInstanceAs (Decidable (_ < _))
  | .handshake | .doWrite _ => .isTrue trivial

theorem output_kept_retried : ∃ o, Reachable Initial next Fits o ∧ o.accepted = [1, 2] ∧
    o.socket.outputBuffer.toList = [3, 4] ∧ o.Kept := by
  obtain ⟨o, hreach, haccepted, hlist⟩ : ∃ o, Reachable Initial next Fits o ∧ o.accepted = [1, 2] ∧
      o.socket.outputBuffer.toList = [3, 4] :=
    Reachable.exists_of_run rfl
      [.handshake, .write [1, 2, 3], .doWrite (.error .wantWrite), .write [4], .doWrite (.ok 2)] (by decide)
  exact ⟨o, hreach, haccepted, hlist, output_kept hreach⟩

section Wrapped

/-- With one byte more than can be counted, one is handed on and all are discarded. -/
lemma doWrite_wrapped {s : Socket} (hready : s.tls.secureReady = true) (hssl : s.tls.ssl = true)
    (hfatal : s.tls.fatal = false) (hretry : s.tls.doWriteRetry = false)
    (hlength : s.outputBuffer.toList.length = 2 ^ 32 + 1) :
    (handed s).length = 1 ∧ (s.doWriteSecure (.ok 1)).2.outputBuffer.toList = [] := by
  have hsize : s.outputBuffer.getSize = 1 := by
    rw [StreamBuffer.getSize, s.outputBuffer.size_eq]
    change s.outputBuffer.toList.length % 2 ^ 32 = 1
    rw [hlength]
    rfl
  have hpeek := s.outputBuffer.peek_fst (show 1 ≤ s.outputBuffer.toList.length by rw [hlength]; omega)
  have hhanded : (s.outputBuffer.peek 1).1.length = 1 := by
    rw [hpeek, List.length_take, hlength]
    rfl
  have hprepared : s.retryBuffer.2 = 1 ∧ s.retryBuffer.1.tls.ssl = true ∧ s.retryBuffer.1.tls.fatal = false ∧
      s.retryBuffer.1.outputBuffer.toList = s.outputBuffer.toList ∧
      (s.retryBuffer.1.tls.doWriteRetryBuffer.take 1).length = 1 := by
    rw [Socket.retryBuffer, if_neg (by simp [hretry]), hsize]
    refine ⟨rfl, hssl, hfatal, StreamBuffer.toList_peek _ _, ?_⟩
    rw [List.length_take, List.length_append, hhanded]
    omega
  obtain ⟨hone, hssl', hfatal', hlist, htake⟩ := hprepared
  constructor
  · rw [handed, if_pos ⟨hready, hssl⟩, hone, htake]
  · rw [Socket.doWriteSecure, hready]
    generalize s.retryBuffer = prepared at *
    obtain ⟨t, bufferSize⟩ := prepared
    dsimp only at hone hssl' hfatal' hlist ⊢
    subst hone
    rw [if_neg (by decide), if_neg one_ne_zero, secureWrite_ok hssl' hfatal']
    dsimp only
    rw [if_pos (by decide), if_pos one_pos, Socket.discardWrittenData]
    have hpop : (t.outputBuffer.pop 1).toList = [] := by
      have hone : t.outputBuffer.getSize ≤ 1 := by
        rw [StreamBuffer.getSize, t.outputBuffer.size_eq]
        change t.outputBuffer.toList.length % 2 ^ 32 ≤ 1
        rw [hlist, hlength]
        rfl
      rw [StreamBuffer.pop_all hone]
      rfl
    split_ifs
    · exact hpop
    · exact hpop

lemma exists_write {o : Output} (hwritable : o.socket.writable = true) (data : List UInt8)
    (hdata : data.length < 2 ^ 32) : ∃ t, o.next (.write data) = some t ∧ t.socket.tls = o.socket.tls ∧
      t.socket.writable = true ∧ t.written = o.written ++ data ∧ t.accepted = o.accepted ∧
      t.socket.outputBuffer.toList = o.socket.outputBuffer.toList ++ data := by
  obtain ⟨htls, hsame, hbuffer⟩ := write_output o.socket data
  refine ⟨_, if_pos hdata, htls, hsame.trans hwritable, if_pos hwritable, rfl, ?_⟩
  rw [hbuffer, if_pos hwritable]
  exact StreamBuffer.toList_write _ data

/-- The count of the output buffer wraps around and what is in it is lost. -/
theorem output_lost : ¬ ∀ o, Reachable Initial next (fun _ _ => True) o → o.Kept := by
  intro hall
  have hhalf : (List.replicate (2 ^ 31) (0 : UInt8)).length = 2 ^ 31 := List.length_replicate
  have hstart : Reachable Initial next (fun _ _ => True) ⟨{ Socket.new true with
      tls := { Tls.new with secureReady := true } }, [], []⟩ := .step (e := .handshake) (.start rfl) trivial rfl
  obtain ⟨o, ho, htls, hwritable, hwritten, haccepted, hlist⟩ :=
    exists_write (o := ⟨{ Socket.new true with tls := { Tls.new with secureReady := true } }, [], []⟩) rfl
      (List.replicate (2 ^ 31) 0) (by rw [hhalf]; decide)
  obtain ⟨p, hp, hptls, hpwritable, hpwritten, hpaccepted, hplist⟩ :=
    exists_write hwritable (List.replicate (2 ^ 31) 0) (by rw [hhalf]; decide)
  obtain ⟨q, hq, hqtls, -, hqwritten, hqaccepted, hqlist⟩ := exists_write hpwritable [7] (by decide)
  have hreach := ((hstart.step trivial ho).step trivial hp).step trivial hq
  have hsame := hqtls.trans (hptls.trans htls)
  have hlength : q.socket.outputBuffer.toList.length = 2 ^ 32 + 1 := by
    rw [hqlist, hplist, hlist, List.length_append, List.length_append, List.length_append, hhalf]
    rfl
  obtain ⟨hhanded, hgone⟩ := doWrite_wrapped (by rw [hsame]) (by rw [hsame]; rfl) (by rw [hsame]; rfl)
    (by rw [hsame]; rfl) hlength
  have hallows : allows q.socket (.ok 1) = true := by
    rw [allows, hhanded]
    decide
  have hlost := hall _ (hreach.step (e := .doWrite (.ok 1)) trivial (if_pos hallows))
  have hcounted := congrArg List.length hlost
  simp only [hgone, hqaccepted, hpaccepted, haccepted, hqwritten, hpwritten, hwritten, List.nil_append,
    List.append_nil, List.length_take, List.length_append, hhalf] at hcounted
  omega

end Wrapped

end Output

end InputLeap.Net
