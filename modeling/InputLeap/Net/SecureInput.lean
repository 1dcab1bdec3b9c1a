import Mathlib.Data.List.Chain
import InputLeap.Lib.Reachable
import InputLeap.Net.Socket

/-! What arrives through TLS. A record is decrypted as a whole and read in pieces, so that TLS may hold pieces for which
nothing more has to come from the network. -/

namespace InputLeap.Net

open InputLeap.Lib InputLeap.Io

/-- What a call to `SSL_read` will return. -/
structure Incoming where
  read : SslRead
  /-- Whether it is decrypted with what comes before it, as a further piece of the same record. -/
  decrypted : Bool

namespace Incoming

def bytes (r : Incoming) : List UInt8 := r.read.toOption.getD []

def final (r : Incoming) : Bool :=
  match r.read with
  | .ok _ => false
  | .error e => !e.retries

end Incoming

inductive Record
  | data (first : List UInt8) (more : List (List UInt8))
  | failure (error : SslError)

def Record.reads : Record → List Incoming
  | data first more => ⟨.ok first, false⟩ :: more.map fun bytes => ⟨.ok bytes, true⟩
  | failure error => [⟨.error error, false⟩]

structure Input where
  socket : Socket
  layer : List Incoming
  /-- Ghost: the number of events sent when there last was no input. -/
  mark : ℕ

inductive InputStep
  | handshake
  | arrive (record : Record)
  | doRead
  | read (n : ℕ)

namespace Input

def arrives (i : Input) (record : Record) : Bool :=
  !i.socket.tls.fatal && (!i.layer.any Incoming.final &&
    match record with
    | .data first more => decide (∀ bytes ∈ first :: more, bytes ≠ [])
    | .failure _ => true)

def next (i : Input) : InputStep → Option Input
  | .handshake => some { i with socket := { i.socket with tls := { i.socket.tls with secureReady := true } } }
  | .arrive record => if i.arrives record then some { i with layer := i.layer ++ record.reads } else none
  | .doRead =>
    let (_, socket, layer) := i.socket.doReadSecure Incoming.read i.layer
    some ⟨socket, layer, if i.socket.inputBuffer.toList = [] then i.socket.events.length else i.mark⟩
  | .read n => some { i with socket := (i.socket.read n).2 }

def start : Input := ⟨.new true, [], 0⟩

/-- Since there is input it has been announced, before any event that ends the connection. -/
def Announced (i : Input) : Prop :=
  i.socket.inputBuffer.toList ≠ [] → ∃ before after, i.socket.events = before ++ .streamInputReady :: after ∧
    i.mark ≤ before.length ∧ .streamInputShutdown ∉ before ∧ .socketDisconnected ∉ before

def Drained (i : Input) : Prop := ∀ r, i.layer.head? = some r → r.decrypted = false

def Keeps (i : Input) (e : InputStep) : Prop := ∀ t, i.next e = some t → t.Announced ∧ t.Drained

def Exceeds (bytes : List UInt8) : Prop := maxInputBufferSize < bytes.length % 2 ^ 32

def filled (s : Socket) (taken : List Incoming) : List UInt8 := s.inputBuffer.toList ++ taken.flatMap Incoming.bytes

/-- What one pass takes: all data up to what is none, or until the buffer holds too much. -/
structure Takes (i : Input) (taken rest : List Incoming) : Prop where
  split : i.layer = taken ++ rest
  data : ∀ r ∈ taken, r.read.isOk = true
  nonempty : taken ≠ []
  room : ∀ first more, first ≠ [] → more ≠ [] → taken = first ++ more → ¬ Exceeds (filled i.socket first)
  ends : Exceeds (filled i.socket taken) ∨ ∀ r, rest.head? = some r → r.read.isOk = false

/-- What a pass takes is not cut off within a record and, if there was no input before, not followed by the end of the
connection in the same pass. -/
def Meets (i : Input) : InputStep → Prop
  | .doRead => i.socket.tls.secureReady = true → i.socket.tls.fatal = false → ∀ taken rest, i.Takes taken rest →
    (∀ r, rest.head? = some r → r.decrypted = false) ∧
      (i.socket.inputBuffer.toList ≠ [] ∨ Exceeds (filled i.socket taken) ∨
        ∀ r, rest.head? = some r → r.final = false)
  | _ => True

structure Follows (r t : Incoming) : Prop where
  final : r.final = false
  fresh : r.read.isOk = false → t.decrypted = false

structure Inv (i : Input) : Prop where
  ssl : i.socket.tls.ssl = true
  readable : i.socket.readable = true
  data : ∀ r ∈ i.layer, r.read.isOk = true → r.bytes ≠ []
  whole : ∀ r ∈ i.layer, r.read.isOk = false → r.decrypted = false
  follows : i.layer.IsChain Follows
  ended : i.socket.tls.fatal = true → i.layer = []
  quiet : i.socket.tls.fatal = false →
    .streamInputShutdown ∉ i.socket.events ∧ .socketDisconnected ∉ i.socket.events

inductive Ends (full : Prop) (events : List SocketEvent) (t : Socket) :
    List Incoming → JobResult → List Incoming → Prop
  | full {rest : List Incoming} (h : full) (hevents : t.events = events) (hfatal : t.tls.fatal = false) :
      Ends full events t rest .kRetry rest
  | dry (h : ¬ full) (hevents : t.events = events) (hfatal : t.tls.fatal = false) : Ends full events t [] .kRetry []
  | again {r : Incoming} {rest : List Incoming} (h : ¬ full) (hr : r.read.isOk = false) (hfinal : r.final = false)
      (hevents : t.events = events) (hfatal : t.tls.fatal = false) : Ends full events t (r :: rest) .kRetry rest
  | failed {r : Incoming} {rest : List Incoming} (h : ¬ full) (hr : r.read.isOk = false) (hfinal : r.final = true)
      (hevents : t.events = events ++ Socket.failureEvents) (hfatal : t.tls.fatal = true) :
      Ends full events t (r :: rest) .kBreak rest

section Loop

variable {s : Socket}

lemma isOk_ok {r : Incoming} {bytes : List UInt8} (h : r.read = .ok bytes) :
    r.read.isOk = true ∧ r.bytes = bytes ∧ r.final = false := by
  simp [Incoming.bytes, Incoming.final, h, Except.isOk, Except.toBool, Except.toOption]

lemma isOk_error {r : Incoming} {e : SslError} (h : r.read = .error e) :
    r.read.isOk = false ∧ r.bytes = [] ∧ r.final = !e.retries := by
  simp [Incoming.bytes, Incoming.final, h, Except.isOk, Except.toBool, Except.toOption]

lemma getSize_eq (b : StreamBuffer) : b.getSize = b.toList.length % 2 ^ 32 := b.size_eq

lemma exceeds_iff {buffer : List UInt8} : maxInputBufferSize < (s.inputBuffer.write buffer).getSize ↔
    Exceeds (s.inputBuffer.toList ++ buffer) := by
  rw [getSize_eq, StreamBuffer.toList_write, Exceeds]

/-- What the loop of a pass makes of what is to be read, with a piece that is still to be stored. -/
structure Slurps (s : Socket) (buffer : List UInt8) (layer taken rest : List Incoming)
    (done : JobResult × Socket × List Incoming) : Prop where
  split : layer = taken ++ rest
  data : ∀ r ∈ taken, r.read.isOk = true
  stored : done.2.1.inputBuffer.toList = s.inputBuffer.toList ++ buffer ++ taken.flatMap Incoming.bytes
  room : ∀ first more, more ≠ [] → taken = first ++ more →
    ¬ Exceeds (s.inputBuffer.toList ++ buffer ++ first.flatMap Incoming.bytes)
  ends : Ends (Exceeds (s.inputBuffer.toList ++ buffer ++ taken.flatMap Incoming.bytes)) s.events done.2.1 rest done.1
    done.2.2

lemma slurps_nothing {buffer : List UInt8} {layer left : List Incoming} {t : Socket} {result : JobResult}
    (hinput : t.inputBuffer = s.inputBuffer.write buffer)
    (hends : Ends (Exceeds (s.inputBuffer.toList ++ buffer)) s.events t layer result left) :
    Slurps s buffer layer [] layer (result, t, left) where
  split := rfl
  data := by simp
  stored := by
    rw [List.flatMap_nil, List.append_nil, ← StreamBuffer.toList_write]
    exact congrArg StreamBuffer.toList hinput
  room first more hmore h := absurd (List.append_eq_nil_iff.mp h.symm).2 hmore
  ends := by rwa [List.flatMap_nil, List.append_nil]

lemma Slurps.next {t : Socket} {buffer : List UInt8} {read : Incoming} {reads taken rest : List Incoming}
    {done : JobResult × Socket × List Incoming} (h : Slurps t read.bytes reads taken rest done)
    (hinput : t.inputBuffer = s.inputBuffer.write buffer) (hevents : t.events = s.events) (hok : read.read.isOk = true)
    (hroom : ¬ Exceeds (s.inputBuffer.toList ++ buffer)) :
    Slurps s buffer (read :: reads) (read :: taken) rest done := by
  have hflat (rs : List Incoming) : t.inputBuffer.toList ++ read.bytes ++ rs.flatMap Incoming.bytes =
      s.inputBuffer.toList ++ buffer ++ (read :: rs).flatMap Incoming.bytes := by
    rw [hinput, StreamBuffer.toList_write, List.flatMap_cons, List.append_assoc]
  refine ⟨congrArg (read :: ·) h.split, List.forall_mem_cons.mpr ⟨hok, h.data⟩, h.stored.trans (hflat taken), ?_, ?_⟩
  · intro first more hmore hsplit
    cases first with
    | nil => rwa [List.flatMap_nil, List.append_nil]
    | cons r first =>
      obtain ⟨rfl, htail⟩ := List.cons.inj hsplit
      rw [← hflat]
      exact h.room first more hmore htail
  · rw [← hflat, ← hevents]
    exact h.ends

lemma slurps_error {buffer : List UInt8} {layer left : List Incoming} {e : SslError} (hssl : s.tls.ssl = true)
    (hfatal : s.tls.fatal = false)
    (hretries : e.retries = true → ∀ t : Socket, t.events = s.events → t.tls.fatal = false →
      Ends (Exceeds (s.inputBuffer.toList ++ buffer)) s.events t layer .kRetry left)
    (hfails : e.retries = false → ∀ t : Socket, t.events = s.events ++ Socket.failureEvents → t.tls.fatal = true →
      Ends (Exceeds (s.inputBuffer.toList ++ buffer)) s.events t layer .kBreak left) :
    let r := ({ s with inputBuffer := s.inputBuffer.write buffer } : Socket).secureRead (.error e) buffer
    r.bytes = [] ∧ Slurps s buffer layer [] layer (if r.status < 0 then .kBreak else .kRetry, r.socket, left) ∧
      ¬ 0 < r.status := by
  cases he : e.retries with
  | true =>
    obtain ⟨t, hread, hinput, hevents, hfatal'⟩ := Socket.secureRead_retries
      (s := { s with inputBuffer := s.inputBuffer.write buffer }) hssl hfatal he buffer
    rw [hread]
    exact ⟨rfl, slurps_nothing hinput (hretries he t hevents hfatal'), lt_irrefl 0⟩
  | false =>
    obtain ⟨t, hread, hinput, hevents, hfatal'⟩ := Socket.secureRead_fatal
      (s := { s with inputBuffer := s.inputBuffer.write buffer }) hssl he buffer
    rw [hread]
    exact ⟨rfl, slurps_nothing hinput (hfails he t hevents hfatal'), by simp⟩

lemma slurp_spec (layer : List Incoming) (s : Socket) (buffer : List UInt8) (hssl : s.tls.ssl = true)
    (hfatal : s.tls.fatal = false) (hdata : ∀ r ∈ layer, r.read.isOk = true → r.bytes ≠ []) :
    ∃ taken rest, Slurps s buffer layer taken rest (s.slurpSecure Incoming.read layer buffer) := by
  induction layer generalizing s buffer with
  | nil =>
    rw [Socket.slurpSecure]
    dsimp only
    by_cases hfull : maxInputBufferSize < (s.inputBuffer.write buffer).getSize
    · rw [if_pos hfull]
      exact ⟨[], [], slurps_nothing rfl (.full (exceeds_iff.mp hfull) rfl hfatal)⟩
    · rw [if_neg hfull]
      have hroom := mt exceeds_iff.mpr hfull
      exact ⟨[], [], (slurps_error hssl hfatal (fun _ t hevents hfatal' => .dry hroom hevents hfatal')
        (fun he => absurd he (by decide))).2.1⟩
  | cons read reads ih =>
    rw [Socket.slurpSecure]
    dsimp only
    by_cases hfull : maxInputBufferSize < (s.inputBuffer.write buffer).getSize
    · rw [if_pos hfull]
      exact ⟨[], read :: reads, slurps_nothing rfl (.full (exceeds_iff.mp hfull) rfl hfatal)⟩
    · rw [if_neg hfull]
      have hroom := mt exceeds_iff.mpr hfull
      cases hresult : read.read with
      | ok bytes =>
        obtain ⟨hok, rfl, -⟩ := isOk_ok hresult
        rw [Socket.secureRead_ok (s := { s with inputBuffer := s.inputBuffer.write buffer }) hssl hfatal]
        dsimp only
        rw [if_neg (show ¬ (read.bytes.length : ℤ) < 0 by omega), if_pos (.inl (hdata read List.mem_cons_self hok))]
        obtain ⟨taken, rest, h⟩ := ih
          { s with inputBuffer := s.inputBuffer.write buffer, tls := { s.tls with secureReadRetry := 0 } } read.bytes hssl
          hfatal fun r hr => hdata r (List.mem_cons_of_mem _ hr)
        exact ⟨read :: taken, rest, h.next rfl rfl hok hroom⟩
      | error e =>
        obtain ⟨hok, -, hfinal⟩ := isOk_error hresult
        obtain ⟨hbytes, h, hstatus⟩ := slurps_error hssl hfatal
          (fun he t hevents hfatal' => show Ends _ _ t (read :: reads) .kRetry reads from
            .again hroom hok (by rw [hfinal, he]; rfl) hevents hfatal')
          fun he t hevents hfatal' => .failed hroom hok (by rw [hfinal, he]; rfl) hevents hfatal'
        refine ⟨[], read :: reads, ?_⟩
        rw [if_neg (c := _ ∨ _) (not_or.mpr ⟨not_not.mpr hbytes, hstatus⟩)]
        split_ifs at h ⊢
        · exact h
        · exact h

structure ReadsNone (i : Input) (done : Socket × List Incoming) : Prop where
  layer : done.2 = i.layer.tail
  head : ∀ r, i.layer.head? = some r → r.read.isOk = false
  same : Socket.Undisturbed i.socket done.1
  input : done.1.inputBuffer = i.socket.inputBuffer
  ends : done.1.events = i.socket.events ∧ done.1.tls.fatal = false ∨
    done.1.events = i.socket.events ++ Socket.failureEvents ∧ done.1.tls.fatal = true ∧
      ∃ r, i.layer.head? = some r ∧ r.final = true

structure ReadsAll (i : Input) (done : Socket × List Incoming) (taken rest : List Incoming) (t : Socket)
    (result : JobResult) : Prop where
  takes : i.Takes taken rest
  same : Socket.Undisturbed i.socket t
  input : t.inputBuffer.toList = filled i.socket taken
  ends : Ends (Exceeds (filled i.socket taken)) i.socket.events t rest result done.2
  socket : done.1 =
    if result = .kBreak then t else if i.socket.inputBuffer.getSize = 0 then t.sendEvent .streamInputReady else t

variable {i : Input}

lemma doRead_error (h : Inv i) (hready : i.socket.tls.secureReady = true) (hfatal : i.socket.tls.fatal = false)
    {e : SslError} (hfirst : (i.layer.head?.map Incoming.read).getD (.error .wantRead) = .error e)
    (hhead : ∀ r, i.layer.head? = some r → r.read.isOk = false)
    (hfinal : e.retries = false → ∃ r, i.layer.head? = some r ∧ r.final = true) :
    ReadsNone i (i.socket.doReadSecure Incoming.read i.layer).2 := by
  have hsame := (i.socket.secureRead_undisturbed (.error e) []).1
  rw [Socket.doReadSecure, hready, h.ssl, if_neg (by decide), hfirst]
  dsimp only
  rw [if_pos rfl]
  cases he : e.retries with
  | true =>
    obtain ⟨t, hread, hinput, hevents, hfatal'⟩ := Socket.secureRead_retries h.ssl hfatal he []
    rw [hread] at hsame ⊢
    exact ⟨rfl, hhead, hsame, hinput, .inl ⟨hevents, hfatal'⟩⟩
  | false =>
    obtain ⟨t, hread, hinput, hevents, hfatal'⟩ := Socket.secureRead_fatal h.ssl he []
    rw [hread] at hsame ⊢
    exact ⟨rfl, hhead, hsame, hinput, .inr ⟨hevents, hfatal', hfinal he⟩⟩

lemma Slurps.takes {read : Incoming} {reads taken rest : List Incoming} {done : JobResult × Socket × List Incoming}
    (h : Slurps s read.bytes reads taken rest done) (hinput : s.inputBuffer = i.socket.inputBuffer)
    (hlayer : i.layer = read :: reads) (hok : read.read.isOk = true) : i.Takes (read :: taken) rest := by
  have hflat (rs : List Incoming) : s.inputBuffer.toList ++ read.bytes ++ rs.flatMap Incoming.bytes =
      filled i.socket (read :: rs) := by
    rw [filled, List.flatMap_cons, hinput, List.append_assoc]
  refine ⟨?_, List.forall_mem_cons.mpr ⟨hok, h.data⟩, List.cons_ne_nil _ _, ?_, ?_⟩
  · rw [hlayer, h.split]
    rfl
  · intro first more hfirst hmore heq
    cases first with
    | nil => exact absurd rfl hfirst
    | cons r first =>
      obtain ⟨rfl, htail⟩ := List.cons.inj heq
      rw [← hflat]
      exact h.room first more hmore htail
  · have hends := h.ends
    rw [hflat] at hends
    generalize done.1 = result, done.2.1 = t, done.2.2 = left at hends
    cases hends with
    | full hfull => exact .inl hfull
    | dry => exact .inr fun r hr => absurd hr.symm (Option.some_ne_none _)
    | again _ hr => exact .inr fun r hhead => Option.some.inj hhead ▸ hr
    | failed _ hr => exact .inr fun r hhead => Option.some.inj hhead ▸ hr

lemma doRead_data (h : Inv i) (hready : i.socket.tls.secureReady = true) (hfatal : i.socket.tls.fatal = false)
    {read : Incoming} {reads : List Incoming} (hlayer : i.layer = read :: reads) (hok : read.read.isOk = true) :
    ∃ taken rest t result, ReadsAll i (i.socket.doReadSecure Incoming.read i.layer).2 taken rest t result := by
  have hread : read.read = .ok read.bytes := by
    cases hresult : read.read with
    | ok bytes => rw [(isOk_ok hresult).2.1]
    | error e => exact absurd ((isOk_error hresult).1.symm.trans hok) Bool.false_ne_true
  have hne : read.bytes ≠ [] := h.data read (hlayer ▸ List.mem_cons_self) hok
  have hpos := List.length_pos_iff.mpr hne
  have hsame := Socket.slurpSecure_undisturbed Incoming.read reads
    { i.socket with tls := { i.socket.tls with secureReadRetry := 0 } } read.bytes
  obtain ⟨taken, rest, hslurps⟩ := slurp_spec reads
    { i.socket with tls := { i.socket.tls with secureReadRetry := 0 } } read.bytes h.ssl hfatal
    fun r hr => h.data r (hlayer ▸ List.mem_cons_of_mem _ hr)
  have htakes := hslurps.takes rfl hlayer hok
  have hstored := hslurps.stored
  have hends := hslurps.ends
  have hflat : i.socket.inputBuffer.toList ++ read.bytes ++ taken.flatMap Incoming.bytes =
      filled i.socket (read :: taken) := by
    rw [filled, List.flatMap_cons, List.append_assoc]
  rw [Socket.doReadSecure, hready, h.ssl, if_neg (by decide), hlayer, List.head?_cons, Option.map_some,
    Option.getD_some, List.tail_cons, hread, Socket.secureRead_ok h.ssl hfatal]
  dsimp only
  rw [if_neg (show ¬ (read.bytes.length : ℤ) < 0 by omega), if_neg (show (read.bytes.length : ℤ) ≠ 0 by omega),
    if_pos rfl, if_pos hne]
  generalize Socket.slurpSecure Incoming.read reads _ read.bytes = done at hsame hstored hends ⊢
  obtain ⟨result, t, left⟩ := done
  refine ⟨read :: taken, rest, t, result, htakes,
    ⟨hsame.socket, hsame.connected, hsame.readable, hsame.ssl, hsame.secureReady⟩, hstored.trans hflat, ?_, ?_⟩
  · rw [← hflat]
    split_ifs <;> exact hends
  · split_ifs <;> rfl

lemma doRead_cases (h : Inv i) (hready : i.socket.tls.secureReady = true) (hfatal : i.socket.tls.fatal = false) :
    ReadsNone i (i.socket.doReadSecure Incoming.read i.layer).2 ∨
      ∃ taken rest t result, ReadsAll i (i.socket.doReadSecure Incoming.read i.layer).2 taken rest t result := by
  cases hlayer : i.layer with
  | nil =>
    left
    rw [← hlayer]
    refine doRead_error h hready hfatal (e := .wantRead) (by rw [hlayer]; rfl) (fun r hr => ?_)
      fun he => absurd he (by decide)
    rw [hlayer] at hr
    cases hr
  | cons read reads =>
    rw [← hlayer]
    have hhead : i.layer.head? = some read := by rw [hlayer]; rfl
    cases hresult : read.read with
    | ok bytes => exact .inr (doRead_data h hready hfatal hlayer (isOk_ok hresult).1)
    | error e =>
      obtain ⟨hok, -, hfinal⟩ := isOk_error hresult
      refine .inl (doRead_error h hready hfatal (e := e) (by rw [hhead, ← hresult]; rfl) (fun r hr => ?_) fun he => ?_)
      · rw [hhead] at hr
        exact Option.some.inj hr ▸ hok
      · exact ⟨read, hhead, by rw [hfinal, he]; rfl⟩

end Loop

section Step

variable {i t : Input}

lemma not_takes {taken rest : List Incoming} (h : ∀ r, i.layer.head? = some r → r.read.isOk = false) :
    ¬ i.Takes taken rest := by
  intro htakes
  cases taken with
  | nil => exact htakes.nonempty rfl
  | cons r taken =>
    have hok := htakes.data r List.mem_cons_self
    rw [h r (by rw [htakes.split]; rfl)] at hok
    exact Bool.false_ne_true hok

/-- A pass takes what it takes: the data ends or the room does, and not before. -/
lemma Takes.unique {taken rest taken' rest' : List Incoming} (h : i.Takes taken rest) (h' : i.Takes taken' rest') :
    taken = taken' ∧ rest = rest' := by
  have hshort : ∀ {taken rest taken' rest' : List Incoming}, i.Takes taken rest → i.Takes taken' rest' →
      taken.length ≤ taken'.length → taken = taken' ∧ rest = rest' := by
    intro taken rest taken' rest' h h' hle
    obtain ⟨more, rfl⟩ := List.prefix_of_prefix_length_le (List.prefix_append taken rest)
      ((h.split.symm.trans h'.split) ▸ List.prefix_append taken' rest') hle
    have hrest : rest = more ++ rest' := by
      have hsplit := h.split.symm.trans h'.split
      rw [List.append_assoc] at hsplit
      exact List.append_cancel_left hsplit
    cases more with
    | nil => exact ⟨(List.append_nil _).symm, hrest⟩
    | cons r more =>
      rcases h.ends with hfull | hend
      · exact absurd hfull (h'.room taken (r :: more) h.nonempty (List.cons_ne_nil _ _) rfl)
      · have hok := h'.data r (List.mem_append_right _ List.mem_cons_self)
        rw [hend r (by rw [hrest]; rfl)] at hok
        exact absurd hok Bool.false_ne_true
  rcases le_total taken.length taken'.length with hle | hle
  · exact hshort h h' hle
  · obtain ⟨rfl, rfl⟩ := hshort h' h hle
    exact ⟨rfl, rfl⟩

structure Idle (i t : Input) : Prop where
  input : t.socket.inputBuffer = i.socket.inputBuffer
  none : i.socket.tls.secureReady = true → i.socket.tls.fatal = false → ∀ taken rest, ¬ i.Takes taken rest
  layer : t.layer = i.layer ∨ t.layer = i.layer.tail ∧ ∀ r, i.layer.head? = some r → r.read.isOk = false
  ends : t.socket.events = i.socket.events ∧ t.socket.tls.fatal = i.socket.tls.fatal ∨
    t.socket.events = i.socket.events ++ Socket.failureEvents ∧ t.socket.tls.fatal = true ∧
      (i.socket.tls.fatal = true ∧ t.layer = i.layer ∨
        t.layer = i.layer.tail ∧ ∃ r, i.layer.head? = some r ∧ r.final = true)

structure Taking (i t : Input) (taken rest : List Incoming) (u : Socket) (result : JobResult) : Prop where
  fatal : i.socket.tls.fatal = false
  takes : i.Takes taken rest
  input : u.inputBuffer.toList = filled i.socket taken
  ends : Ends (Exceeds (filled i.socket taken)) i.socket.events u rest result t.layer
  socket : t.socket = if result = .kBreak then u
    else if i.socket.inputBuffer.getSize = 0 then u.sendEvent .streamInputReady else u

lemma Taking.socket_eq {taken rest : List Incoming} {u : Socket} {result : JobResult}
    (h : Taking i t taken rest u result) : t.socket.tls = u.tls ∧ t.socket.inputBuffer = u.inputBuffer ∧
      t.socket.events = if result = .kBreak then u.events
        else if i.socket.inputBuffer.getSize = 0 then u.events ++ [.streamInputReady] else u.events := by
  rw [h.socket]
  split_ifs
  · exact ⟨rfl, rfl, rfl⟩
  · exact ⟨rfl, rfl, rfl⟩
  · exact ⟨rfl, rfl, rfl⟩

lemma doRead_next (h : Inv i) (ht : i.next .doRead = some t) :
    (t.socket.tls.ssl = true ∧ t.socket.readable = true ∧
      t.mark = if i.socket.inputBuffer.toList = [] then i.socket.events.length else i.mark) ∧
    (Idle i t ∨ i.socket.tls.secureReady = true ∧ ∃ taken rest u result, Taking i t taken rest u result) := by
  have hnext : i.next .doRead = some ⟨(i.socket.doReadSecure Incoming.read i.layer).2.1,
      (i.socket.doReadSecure Incoming.read i.layer).2.2,
      if i.socket.inputBuffer.toList = [] then i.socket.events.length else i.mark⟩ := rfl
  rw [hnext] at ht
  obtain rfl := Option.some.inj ht
  cases hready : i.socket.tls.secureReady with
  | false =>
    have hnone : i.socket.doReadSecure Incoming.read i.layer = (.kRetry, i.socket, i.layer) := by
      rw [Socket.doReadSecure, hready]
      rfl
    rw [hnone]
    refine ⟨⟨h.ssl, h.readable, rfl⟩, .inl ⟨rfl, fun htrue => ?_, .inl rfl, .inl ⟨rfl, rfl⟩⟩⟩
    exact absurd (hready.symm.trans htrue) Bool.false_ne_true
  | true =>
    cases hfatal : i.socket.tls.fatal with
    | true =>
      have hlayer := h.ended hfatal
      have hsame := (i.socket.secureRead_undisturbed (.error .wantRead) [])
      obtain ⟨hstatus, hevents, hfatal'⟩ := Socket.secureRead_of_fatal h.ssl hfatal (.error .wantRead) []
      have hbreak : i.socket.doReadSecure Incoming.read i.layer =
          (.kBreak, (i.socket.secureRead (.error .wantRead) []).socket, []) := by
        rw [Socket.doReadSecure, hready, if_neg (by decide), hlayer]
        change (if (i.socket.secureRead (.error .wantRead) []).status < 0 then _ else _) = _
        rw [hstatus, if_pos (by decide), List.tail_nil, ite_self]
        rfl
      rw [hbreak]
      refine ⟨⟨hsame.1.ssl.trans h.ssl, hsame.1.readable.trans h.readable, rfl⟩, .inl ⟨hsame.2, fun _ hfalse => ?_,
        .inl hlayer.symm, .inr ⟨hevents, hfatal', .inl ⟨hfatal, hlayer.symm⟩⟩⟩⟩
      exact absurd (hfalse.symm.trans hfatal) Bool.false_ne_true
    | false =>
      dsimp only
      rcases doRead_cases h hready hfatal with hnone | ⟨taken, rest, u, result, hall⟩
      · refine ⟨⟨hnone.same.ssl.trans h.ssl, hnone.same.readable.trans h.readable, rfl⟩,
          .inl ⟨hnone.input, fun _ _ _ _ => not_takes hnone.head, .inr ⟨hnone.layer, hnone.head⟩, ?_⟩⟩
        rcases hnone.ends with ⟨hevents, hfatal'⟩ | ⟨hevents, hfatal', hfinal⟩
        · exact .inl ⟨hevents, hfatal'.trans hfatal.symm⟩
        · exact .inr ⟨hevents, hfatal', .inr ⟨hnone.layer, hfinal⟩⟩
      · obtain ⟨hssl, hreadable⟩ : (i.socket.doReadSecure Incoming.read i.layer).2.1.tls.ssl = i.socket.tls.ssl ∧
            (i.socket.doReadSecure Incoming.read i.layer).2.1.readable = i.socket.readable := by
          rw [hall.socket]
          split_ifs <;> exact ⟨hall.same.ssl, hall.same.readable⟩
        exact ⟨⟨hssl.trans h.ssl, hreadable.trans h.readable, rfl⟩,
          .inr ⟨rfl, taken, rest, u, result, hfatal, hall.takes, hall.input, hall.ends, hall.socket⟩⟩

lemma read_spec {s : Socket} (hreadable : s.readable = true) (n : ℕ) :
    (s.read n).2.tls = s.tls ∧ (s.read n).2.readable = true ∧ (s.read n).2.events = s.events ∧
      ((s.read n).2.inputBuffer.toList ≠ [] → s.inputBuffer.toList ≠ []) := by
  rw [Socket.read]
  dsimp only
  rw [if_neg (by simp [hreadable])]
  refine ⟨rfl, hreadable, rfl, fun hne hempty => hne ?_⟩
  have hstored : (s.inputBuffer.peek (min n s.inputBuffer.getSize)).2.stored < 2 ^ 32 := by
    rw [StreamBuffer.stored_peek, StreamBuffer.stored_of_empty hempty]
    decide
  rw [StreamBuffer.toList_pop hstored, StreamBuffer.toList_peek, hempty, List.drop_nil, ite_self]

lemma reads_chain (record : Record) : record.reads.IsChain Follows ∧
    (∀ r, record.reads.head? = some r → r.decrypted = false) := by
  cases record with
  | failure e => exact ⟨List.isChain_singleton _, fun r hr => Option.some.inj hr ▸ rfl⟩
  | data first more =>
    refine ⟨?_, fun r hr => Option.some.inj hr ▸ rfl⟩
    have hmore : ∀ (r : Incoming) (more : List (List UInt8)), r.read.isOk = true → r.final = false →
        (r :: more.map fun bytes => ⟨.ok bytes, true⟩).IsChain Follows := by
      intro r more
      induction more generalizing r with
      | nil => exact fun _ _ => List.isChain_singleton _
      | cons bytes more ih =>
        intro hok hfinal
        refine List.isChain_cons_cons.mpr ⟨⟨hfinal, fun h => ?_⟩, ih _ rfl rfl⟩
        exact absurd (h.symm.trans hok) Bool.false_ne_true
    exact hmore _ more rfl rfl

lemma Inv.arrive (h : Inv i) {record : Record} (ht : i.next (.arrive record) = some t) : Inv t := by
  rw [next] at ht
  split_ifs at ht with harrives
  obtain rfl := Option.some.inj ht
  rw [arrives.eq_def, Bool.and_eq_true_iff, Bool.and_eq_true_iff, Bool.not_eq_true', Bool.not_eq_true', List.any_eq_false]
    at harrives
  obtain ⟨hfatal, hfinal, hne⟩ := harrives
  refine ⟨h.ssl, h.readable, ?_, ?_, ?_, fun htrue => absurd (hfatal.symm.trans htrue) Bool.false_ne_true, h.quiet⟩
  · intro r hr hok
    rcases List.mem_append.mp hr with hr | hr
    · exact h.data r hr hok
    · cases record with
      | failure e =>
        obtain rfl := List.mem_singleton.mp hr
        exact absurd hok Bool.false_ne_true
      | data first more =>
        have hne := of_decide_eq_true hne
        rcases List.mem_cons.mp hr with rfl | hr
        · exact hne first List.mem_cons_self
        · obtain ⟨bytes, hbytes, rfl⟩ := List.mem_map.mp hr
          exact hne bytes (List.mem_cons_of_mem _ hbytes)
  · intro r hr hok
    rcases List.mem_append.mp hr with hr | hr
    · exact h.whole r hr hok
    · cases record with
      | failure e =>
        obtain rfl := List.mem_singleton.mp hr
        rfl
      | data first more =>
        rcases List.mem_cons.mp hr with rfl | hr
        · rfl
        · obtain ⟨bytes, hbytes, rfl⟩ := List.mem_map.mp hr
          exact absurd hok.symm Bool.false_ne_true
  · obtain ⟨hchain, hfirst⟩ := reads_chain record
    refine List.isChain_append.mpr ⟨h.follows, hchain, fun r hr u hu => ⟨?_, fun _ => hfirst u hu⟩⟩
    exact Bool.eq_false_of_not_eq_true (hfinal r (List.mem_of_getLast? hr))

lemma Inv.of_suffix (h : Inv i) (hssl : t.socket.tls.ssl = true) (hreadable : t.socket.readable = true)
    (hlayer : t.layer <:+ i.layer) (hended : t.socket.tls.fatal = true → t.layer = [])
    (hquiet : t.socket.tls.fatal = false →
      .streamInputShutdown ∉ t.socket.events ∧ .socketDisconnected ∉ t.socket.events) : Inv t where
  ssl := hssl
  readable := hreadable
  data r hr := h.data r (hlayer.subset hr)
  whole r hr := h.whole r (hlayer.subset hr)
  follows := h.follows.suffix hlayer
  ended := hended
  quiet := hquiet

lemma Inv.tail_of_final (h : Inv i) {taken rest : List Incoming} {r : Incoming} (hlayer : i.layer = taken ++ r :: rest)
    (hfinal : r.final = true) : rest = [] := by
  cases rest with
  | nil => rfl
  | cons u rest =>
    have hchain := h.follows
    rw [hlayer] at hchain
    have hfollows := (List.isChain_cons_cons.mp hchain.right_of_append).1
    exact absurd (hfollows.final.symm.trans hfinal) Bool.false_ne_true

lemma Inv.fresh_tail (h : Inv i) {taken rest : List Incoming} {r : Incoming} (hlayer : i.layer = taken ++ r :: rest)
    (hok : r.read.isOk = false) : ∀ u, rest.head? = some u → u.decrypted = false := by
  intro u hu
  cases rest with
  | nil => exact absurd hu.symm (Option.some_ne_none _)
  | cons v rest =>
    obtain rfl := Option.some.inj hu
    have hchain := h.follows
    rw [hlayer] at hchain
    exact (List.isChain_cons_cons.mp hchain.right_of_append).1.fresh hok

lemma Inv.doRead (h : Inv i) (ht : i.next .doRead = some t) : Inv t := by
  obtain ⟨⟨hssl, hreadable, -⟩, hidle | ⟨-, taken, rest, u, result, htaking⟩⟩ := doRead_next h ht
  · apply h.of_suffix hssl hreadable
    · rcases hidle.layer with hlayer | ⟨hlayer, -⟩
      · exact hlayer ▸ List.suffix_refl _
      · exact hlayer ▸ List.tail_suffix _
    · intro hfatal
      rcases hidle.ends with ⟨-, hsame⟩ | ⟨-, -, ⟨hfatal', hlayer⟩ | ⟨hlayer, r, hhead, hfinal⟩⟩
      · have hnil := h.ended (hsame.symm.trans hfatal)
        rcases hidle.layer with hlayer | ⟨hlayer, -⟩
        · exact hlayer.trans hnil
        · rw [hlayer, hnil, List.tail_nil]
      · exact hlayer.trans (h.ended hfatal')
      · rw [hlayer]
        exact h.tail_of_final ((List.eq_cons_of_mem_head? hhead).trans (List.nil_append _).symm) hfinal
    · intro hfatal
      rcases hidle.ends with ⟨hevents, hsame⟩ | ⟨-, htrue, -⟩
      · exact hevents ▸ h.quiet (hsame.symm.trans hfatal)
      · exact absurd (hfatal.symm.trans htrue) Bool.false_ne_true
  · obtain ⟨htls, -, hevents⟩ := htaking.socket_eq
    have hsplit := htaking.takes.split
    obtain ⟨hbefore, hbefore'⟩ := h.quiet htaking.fatal
    have hends := htaking.ends
    clear htaking ht
    obtain ⟨socket, layer, mark⟩ := t
    dsimp only at hends hssl hreadable htls hevents
    have hannounced : result = .kRetry → u.events = i.socket.events →
        .streamInputShutdown ∉ socket.events ∧ .socketDisconnected ∉ socket.events := by
      intro hresult hsame
      rw [hevents, hresult, if_neg (by decide), hsame]
      split_ifs
      · simp [hbefore, hbefore']
      · exact ⟨hbefore, hbefore'⟩
    apply h.of_suffix hssl hreadable
    · rw [hsplit]
      cases hends with
      | full => exact List.suffix_append _ _
      | dry => exact List.nil_suffix
      | again => exact (List.suffix_cons _ _).trans (List.suffix_append _ _)
      | failed => exact (List.suffix_cons _ _).trans (List.suffix_append _ _)
    · intro hfatal
      rw [htls] at hfatal
      cases hends with
      | full _ _ hfalse => exact absurd (hfalse.symm.trans hfatal) Bool.false_ne_true
      | dry => rfl
      | again _ _ _ _ hfalse => exact absurd (hfalse.symm.trans hfatal) Bool.false_ne_true
      | failed _ _ hfinal => exact h.tail_of_final hsplit hfinal
    · intro hfatal
      rw [htls] at hfatal
      cases hends with
      | full _ hsame => exact hannounced rfl hsame
      | dry _ hsame => exact hannounced rfl hsame
      | again _ _ _ hsame => exact hannounced rfl hsame
      | failed _ _ _ _ htrue => exact absurd (hfatal.symm.trans htrue) Bool.false_ne_true

lemma Inv.read (h : Inv i) {n : ℕ} (ht : i.next (.read n) = some t) : Inv t := by
  obtain rfl := Option.some.inj ht
  obtain ⟨htls, hreadable, hevents, -⟩ := read_spec h.readable n
  apply h.of_suffix
  · exact (congrArg Tls.ssl htls).trans h.ssl
  · exact hreadable
  · exact List.suffix_refl _
  · intro hfatal
    exact h.ended ((congrArg Tls.fatal htls).symm.trans hfatal)
  · intro hfatal
    dsimp only
    rw [hevents]
    exact h.quiet ((congrArg Tls.fatal htls).symm.trans hfatal)

lemma Inv.next (h : Inv i) {e : InputStep} (ht : i.next e = some t) : Inv t := by
  cases e with
  | handshake =>
    obtain rfl := Option.some.inj ht
    exact ⟨h.ssl, h.readable, h.data, h.whole, h.follows, h.ended, h.quiet⟩
  | arrive record => exact h.arrive ht
  | doRead => exact h.doRead ht
  | read n => exact h.read ht

lemma Announced.mono (h : i.Announced) {more : List SocketEvent} (hne : i.socket.inputBuffer.toList ≠ [])
    (hmark : t.mark = i.mark) (hevents : t.socket.events = i.socket.events ++ more) : t.Announced := by
  intro _
  obtain ⟨before, after, heq, hle, hquiet⟩ := h hne
  exact ⟨before, after ++ more, by rw [hevents, heq]; simp, hmark ▸ hle, hquiet⟩

/-- Data that has been taken is announced unless the connection is found to have ended in the same pass. -/
lemma Taking.announced_iff {taken rest : List Incoming} {u : Socket} {result : JobResult}
    (htaking : Taking i t taken rest u result) (h : Inv i) (hannounced : i.Announced)
    (hmark : t.mark = if i.socket.inputBuffer.toList = [] then i.socket.events.length else i.mark) :
    t.Announced ↔ i.socket.inputBuffer.toList ≠ [] ∨ Exceeds (Input.filled i.socket taken) ∨
      ∀ r, rest.head? = some r → r.final = false := by
  obtain ⟨-, hinput, hevents⟩ := htaking.socket_eq
  have hne : t.socket.inputBuffer.toList ≠ [] := by
    rw [hinput, htaking.input]
    obtain ⟨r, taken, rfl⟩ := List.exists_cons_of_ne_nil htaking.takes.nonempty
    have hr := h.data r (htaking.takes.split ▸ List.mem_cons_self) (htaking.takes.data r List.mem_cons_self)
    simp [filled, hr]
  have hquiet := h.quiet htaking.fatal
  have hends := htaking.ends
  clear htaking
  obtain ⟨socket, layer, mark⟩ := t
  dsimp only at hends hne hmark hevents hinput
  by_cases hempty : i.socket.inputBuffer.toList = []
  · have hsize : i.socket.inputBuffer.getSize = 0 := by rw [getSize_eq, hempty]; rfl
    rw [if_pos hempty] at hmark
    have hnew : result = .kRetry → u.events = i.socket.events → Announced ⟨socket, layer, mark⟩ := by
      intro hresult hsame _
      rw [hresult, if_neg (by decide), if_pos hsize, hsame] at hevents
      exact ⟨i.socket.events, [], hevents, hmark.le, hquiet⟩
    cases hends with
    | full hfull hsame => exact iff_of_true (hnew rfl hsame) (.inr (.inl hfull))
    | dry _ hsame =>
      exact iff_of_true (hnew rfl hsame) (.inr (.inr fun r hr => absurd hr.symm (Option.some_ne_none _)))
    | again _ _ hfinal hsame =>
      exact iff_of_true (hnew rfl hsame) (.inr (.inr fun r hr => Option.some.inj hr ▸ hfinal))
    | failed hroom _ hfinal hsame =>
      apply iff_of_false
      · intro hall
        obtain ⟨before, after, heq, hle, -⟩ := hall hne
        dsimp only at heq hle
        rw [hevents, if_pos rfl, hsame] at heq
        obtain ⟨mid, rfl⟩ := List.prefix_of_prefix_length_le (List.prefix_append i.socket.events Socket.failureEvents)
          (heq ▸ List.prefix_append before (.streamInputReady :: after)) (hmark ▸ hle)
        rw [List.append_assoc] at heq
        have hmem : SocketEvent.streamInputReady ∈ Socket.failureEvents := by
          rw [List.append_cancel_left heq]
          simp
        exact absurd hmem (by decide)
      · rintro (hne' | hfull | hall)
        · exact hne' hempty
        · exact hroom hfull
        · exact absurd ((hall _ rfl).symm.trans hfinal) Bool.false_ne_true
  · rw [if_neg hempty] at hmark
    have hmono : ∀ more, socket.events = i.socket.events ++ more → Announced ⟨socket, layer, mark⟩ :=
      fun more hmore => hannounced.mono hempty hmark hmore
    have hold : result = .kRetry → u.events = i.socket.events → Announced ⟨socket, layer, mark⟩ := by
      intro hresult hsame
      rw [hresult, if_neg (by decide), hsame] at hevents
      split_ifs at hevents
      · exact hmono _ hevents
      · exact hmono [] (by rw [hevents, List.append_nil])
    apply iff_of_true _ (.inl hempty)
    cases hends with
    | full _ hsame => exact hold rfl hsame
    | dry _ hsame => exact hold rfl hsame
    | again _ _ _ hsame => exact hold rfl hsame
    | failed _ _ _ hsame => exact hmono _ (by rw [hevents, if_pos rfl, hsame])

lemma Taking.drained_iff {taken rest : List Incoming} {u : Socket} {result : JobResult}
    (htaking : Taking i t taken rest u result) (h : Inv i) :
    t.Drained ↔ ∀ r, rest.head? = some r → r.decrypted = false := by
  have hsplit := htaking.takes.split
  have hends := htaking.ends
  clear htaking
  obtain ⟨socket, layer, mark⟩ := t
  dsimp only [Drained] at hends ⊢
  have hlast : ∀ {r : Incoming} {left : List Incoming}, i.layer = taken ++ r :: left → r.read.isOk = false →
      ∀ u, (r :: left).head? = some u → u.decrypted = false := by
    intro r left hlayer hok u hu
    exact Option.some.inj hu ▸ h.whole r (hlayer ▸ List.mem_append_right _ List.mem_cons_self) hok
  cases hends with
  | full => exact Iff.rfl
  | dry => exact Iff.rfl
  | again _ hr => exact iff_of_true (h.fresh_tail hsplit hr) (hlast hsplit hr)
  | failed _ hr => exact iff_of_true (h.fresh_tail hsplit hr) (hlast hsplit hr)

lemma Idle.keeps (hidle : Idle i t) (h : Inv i) (hannounced : i.Announced) (hdrained : i.Drained)
    (hmark : t.mark = if i.socket.inputBuffer.toList = [] then i.socket.events.length else i.mark) :
    t.Announced ∧ t.Drained := by
  constructor
  · intro hne
    have hne' : i.socket.inputBuffer.toList ≠ [] := hidle.input ▸ hne
    rw [if_neg hne'] at hmark
    rcases hidle.ends with ⟨hevents, -⟩ | ⟨hevents, -⟩
    · exact hannounced.mono hne' hmark (hevents.trans (List.append_nil _).symm) hne
    · exact hannounced.mono hne' hmark hevents hne
  · rw [Drained]
    rcases hidle.layer with hlayer | ⟨hlayer, hhead⟩
    · rw [hlayer]
      exact hdrained
    · rw [hlayer]
      cases hi : i.layer with
      | nil => exact fun r hr => absurd hr.symm (Option.some_ne_none _)
      | cons r rest => exact h.fresh_tail (hi.trans (List.nil_append _).symm) (hhead r (by rw [hi]; rfl))

lemma keeps_iff_meets (h : Inv i) (hannounced : i.Announced) (hdrained : i.Drained) (e : InputStep) :
    i.Keeps e ↔ i.Meets e := by
  cases e with
  | handshake =>
    apply iff_of_true _ trivial
    intro t ht
    obtain rfl := Option.some.inj ht
    exact ⟨hannounced, hdrained⟩
  | arrive record =>
    apply iff_of_true _ trivial
    intro t ht
    rw [next] at ht
    split_ifs at ht
    obtain rfl := Option.some.inj ht
    refine ⟨hannounced, fun r hr => ?_⟩
    cases hlayer : i.layer with
    | nil => exact (reads_chain record).2 r (by rw [← hr, hlayer]; rfl)
    | cons u rest => exact hdrained r (by rw [← hr, hlayer]; rfl)
  | read n =>
    apply iff_of_true _ trivial
    intro t ht
    obtain rfl := Option.some.inj ht
    obtain ⟨-, -, hevents, hne⟩ := read_spec h.readable n
    refine ⟨fun hne' => ?_, hdrained⟩
    exact hannounced.mono (hne hne') rfl (hevents.trans (List.append_nil _).symm) hne'
  | doRead =>
    obtain ⟨t, ht⟩ : ∃ t, i.next .doRead = some t := ⟨_, rfl⟩
    have hkeeps : i.Keeps .doRead ↔ t.Announced ∧ t.Drained := by
      constructor
      · exact fun hall => hall t ht
      · exact fun hboth u hu => Option.some.inj (ht.symm.trans hu) ▸ hboth
    rw [hkeeps]
    obtain ⟨⟨-, -, hmark⟩, hidle | ⟨hready, taken, rest, u, result, htaking⟩⟩ := doRead_next h ht
    · apply iff_of_true (hidle.keeps h hannounced hdrained hmark)
      intro hready hfatal taken rest htakes
      exact absurd htakes (hidle.none hready hfatal taken rest)
    · rw [htaking.announced_iff h hannounced hmark, htaking.drained_iff h]
      constructor
      · rintro ⟨hlast, hwhole⟩ - - taken' rest' htakes
        obtain ⟨rfl, rfl⟩ := htaking.takes.unique htakes
        exact ⟨hwhole, hlast⟩
      · intro hmeets
        exact (hmeets hready htaking.fatal taken rest htaking.takes).symm

end Step

lemma start_inv : Inv start where
  ssl := rfl
  readable := rfl
  data _ hr := absurd hr List.not_mem_nil
  whole _ hr := absurd hr List.not_mem_nil
  follows := List.isChain_nil
  ended h := absurd h Bool.false_ne_true
  quiet _ := ⟨List.not_mem_nil, List.not_mem_nil⟩

/-- After every step input has been announced and TLS is drained, as long as every pass meets the condition and only
then. -/
theorem input_announced_iff (es : List InputStep) : Along next Keeps es start ↔ Along next Meets es start := by
  apply Along.congr (I := fun i => Inv i ∧ i.Announced ∧ i.Drained)
  · rintro i e ⟨h, hannounced, hdrained⟩
    exact keeps_iff_meets h hannounced hdrained e
  · rintro i e t ⟨h, -⟩ hkeeps ht
    exact ⟨h.next ht, hkeeps t ht⟩
  · exact ⟨start_inv, fun hne => absurd rfl hne, fun r hr => absurd hr.symm (Option.some_ne_none _)⟩

/-- The last of what the other end has sent before it closes the connection. -/
theorem last_bytes_unannounced : ¬ ∀ es, Along next Keeps es start := by
  intro hall
  have hrun := hall [.handshake, .arrive (.data [1] []), .arrive (.failure .zeroReturn), .doRead]
  obtain ⟨before, after, hevents, -⟩ := ((((hrun.2 _ rfl).2 _ rfl).2 _ rfl).1 _ rfl).1 (by decide)
  have hmem := List.mem_append_right before (List.mem_cons_self (a := SocketEvent.streamInputReady) (l := after))
  rw [← hevents] at hmem
  exact absurd hmem (by decide)

end Input

end InputLeap.Net
