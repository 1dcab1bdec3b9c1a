import InputLeap.Ipc.IpcClientProxy
import InputLeap.Lib.BigEndian

/-! What the daemon makes of a command depends on how its bytes arrive. A message comes out as it was written exactly if
all that is read of it is there when it is read: a short read puts the reader into the middle of a message, and no byte that
it can find there begins a code. -/

namespace InputLeap.Ipc

open InputLeap.Lib InputLeap.Protocol

namespace IpcClientProxy

def encode (calls : List Call) : List UInt8 := calls.flatMap Call.written

def posts (calls : List Call) : List IpcEvent := calls.map fun call => .messageReceived (some call.message)

/-- Every code is read in one piece, and the fields are never waited for. -/
def Whole : List Call → Arriving → Prop
  | [], _ => True
  | call :: calls, s =>
    4 ≤ s.awaited.ready.length ∧ ∃ t ∈ Reader.fed call.counts (s.awaited.read 4).2, Whole calls t

structure Stray where
  bytes : List UInt8
  long : 4 ≤ bytes.length
  hello : bytes.take 4 ≠ code kIpcMsgHello
  command : bytes.take 4 ≠ code kIpcMsgCommand

def strayBytes (stray : Option Stray) : List UInt8 := stray.elim [] Stray.bytes

/-- The messages are posted, no other one is, and the connection ends at a stray code. -/
def Survives (unset : Uninitialised) (calls : List Call) (stray : Option Stray) (arrivals : List (List UInt8)) : Prop :=
  (received unset arrivals).thrown = false ∧
    (received unset arrivals).events = posts calls ++ if stray.isSome then [.disconnected] else []

def Lost (s : Arriving) : Prop := ∃ b rest, s.unread = b :: rest ∧ b ≠ 73

variable {u : Uninitialised} {p : IpcClientProxy} {s : Arriving} {rest : List UInt8}

lemma code_hello : code kIpcMsgHello = [73, 72, 69, 76] := by decide

lemma code_command : code kIpcMsgCommand = [73, 67, 77, 68] := by decide

lemma forall_of_all {ok : UInt8 → Prop} [DecidablePred ok] {bytes : List UInt8} (h : (bytes.all fun b => decide (ok b)) = true) :
    ∀ b ∈ bytes, ok b := fun b hb => of_decide_eq_true (List.all_eq_true.mp h b hb)

lemma lost_of_left {left block : List UInt8} (hleft : left ≠ []) (hsuffix : left <:+ block) (hblock : ∀ b ∈ block, b ≠ 73)
    (hs : s.unread = left ++ rest) : Lost s := by
  obtain ⟨b, bs, rfl⟩ := List.exists_cons_of_ne_nil hleft
  exact ⟨b, bs ++ rest, hs, hblock b (hsuffix.subset List.mem_cons_self)⟩

section Fields

lemma vreadf_hello : ProtocolUtil.vreadf (kIpcMsgHello.drop 4) =
    .read 1 fun bytes => .store (.int (BigEndian.decode bytes)) .done := by
  rfl

lemma vreadf_command : ProtocolUtil.vreadf (kIpcMsgCommand.drop 4) =
    .read 4 fun bytes =>
      if ProtocolUtil.maxStringLength < BigEndian.decode bytes then .throw .badClient
      else .read (BigEndian.decode bytes) fun text =>
        .store (.string text) (.read 1 fun bytes => .store (.int (BigEndian.decode bytes)) .done) := by
  rfl

lemma parseHello_eq : p.parseHello u =
    let o := Reader.fetch 1 p.stream 1
    let type := if o.1.length < 1 then u.type p.stream else BigEndian.decode o.1
    { p with stream := o.2, clientType := type }.addEvent (some (.hello type)) := by
  rw [parseHello, readf, vreadf_hello, Reader.run]
  dsimp only
  split_ifs
  · rfl
  · rfl

lemma readf_command : p.readf (kIpcMsgCommand.drop 4) =
    let o := Reader.fetch 4 p.stream 4
    let n := BigEndian.decode o.1
    if o.1.length < 4 then ⟨.error .endOfStream, [], o.1, o.2⟩
    else if ProtocolUtil.maxStringLength < n then ⟨.error .badClient, [], o.1 ++ [], o.2⟩
    else
      let text := Reader.fetch n o.2 n
      if text.1.length < n then ⟨.error .endOfStream, [], o.1 ++ text.1, text.2⟩
      else
        let flag := Reader.fetch 1 text.2 1
        if flag.1.length < 1 then ⟨.error .endOfStream, [.string text.1], o.1 ++ (text.1 ++ flag.1), flag.2⟩
        else ⟨.ok (), [.string text.1, .int (BigEndian.decode flag.1)], o.1 ++ (text.1 ++ (flag.1 ++ [])), flag.2⟩ := by
  rw [readf, vreadf_command, Reader.run]
  dsimp only
  split_ifs with hlength hlong htext hflag
  · rfl
  · rfl
  · rw [Reader.run]
    dsimp only
    rw [if_pos htext]
  · rw [Reader.run]
    dsimp only
    rw [if_neg htext, Reader.run, Reader.run]
    dsimp only
    rw [if_pos hflag]
  · rw [Reader.run]
    dsimp only
    rw [if_neg htext, Reader.run, Reader.run]
    dsimp only
    rw [if_neg hflag]
    rfl

lemma parseCommand_eq : p.parseCommand u =
    let o := Reader.fetch 4 p.stream 4
    let n := BigEndian.decode o.1
    let failed := decide (u.elevate p.stream ≠ 0)
    if o.1.length < 4 then { p with stream := o.2 }.addEvent (some (.command [] failed))
    else if ProtocolUtil.maxStringLength < n then { p with stream := o.2, thrown := true }
    else
      let text := Reader.fetch n o.2 n
      if text.1.length < n then { p with stream := text.2 }.addEvent (some (.command [] failed))
      else
        let flag := Reader.fetch 1 text.2 1
        { p with stream := flag.2 }.addEvent (some (.command text.1
          (if flag.1.length < 1 then failed else decide (BigEndian.decode flag.1 ≠ 0)))) := by
  rw [parseCommand, readf_command]
  dsimp only
  split_ifs
  · rfl
  · rfl
  · rfl
  · rfl
  · rfl

end Fields

section Dispatch

structure Posted (call : Call) (rest : List UInt8) (p q : IpcClientProxy) : Prop where
  thrown : q.thrown = false
  events : q.events = p.events ++ [.messageReceived (some call.message)]
  unread : q.stream.unread = rest
  fed : Reader.fed call.counts p.stream = some q.stream

/-- The message is not the next one to be posted, or the reader is lost. -/
def Failed (call : Call) (p q : IpcClientProxy) : Prop :=
  q.thrown = true ∨ Lost q.stream ∨ ∃ e more, q.events = p.events ++ e :: more ∧ e ≠ .messageReceived (some call.message)

lemma parseHello_whole (hthrown : p.thrown = false) (hunread : p.stream.unread = Call.sendHello.fields ++ rest) :
    Posted .sendHello rest p (p.parseHello u) ∨
      Reader.fed Call.sendHello.counts p.stream = none ∧ Failed .sendHello p (p.parseHello u) := by
  have hfed : Reader.fed Call.sendHello.counts p.stream =
      if (Reader.fetch 1 p.stream 1).1.length < 1 then none else some (Reader.fetch 1 p.stream 1).2 := rfl
  rw [parseHello_eq]
  dsimp only
  rcases Reader.fetch_block Arriving.conserves hunread 1 rfl with ⟨hblock, hrest⟩ | ⟨hshort, left, hleft, hsuffix, hrest⟩
  · have hlength : ¬(Reader.fetch 1 p.stream 1).1.length < 1 := by
      rw [hblock]
      decide
    rw [if_neg hlength] at hfed
    rw [if_neg hlength, hblock]
    exact .inl ⟨hthrown, rfl, hrest, hfed⟩
  · rw [if_pos hshort] at hfed
    exact .inr ⟨hfed, .inr (.inl (lost_of_left hleft hsuffix (forall_of_all (by decide)) hrest))⟩

variable {command : List UInt8} {elevate : ElevateMode}

/-- An empty command is posted, and what is left of the bytes that were to be read begins no code if the command is empty. -/
lemma failed_of_empty {q : IpcClientProxy} {flag : Bool} {left block : List UInt8}
    (hevents : q.events = p.events ++ [.messageReceived (some (.command [] flag))]) (hleft : left ≠ [])
    (hsuffix : left <:+ block) (hblock : Call.cString command = [] → ∀ b ∈ block, b ≠ 73)
    (hunread : q.stream.unread = left ++ rest) : Failed (.sendCommand command elevate) p q := by
  by_cases htext : Call.cString command = []
  · exact .inr (.inl (lost_of_left hleft hsuffix (hblock htext) hunread))
  · refine .inr (.inr ⟨_, [], hevents, fun heq => htext ?_⟩)
    injection heq with hdata
    injection hdata with hmessage
    injection hmessage with hcommand
    exact hcommand.symm

lemma length_of_empty (htext : Call.cString command = []) : ∀ b ∈ BigEndian.encode 4 (Call.cString command).length, b ≠ 73 := by
  rw [htext]
  exact forall_of_all (by decide)

lemma parseCommand_whole (hthrown : p.thrown = false) (hfits : (Call.sendCommand command elevate).Fits)
    (hunread : p.stream.unread = (Call.sendCommand command elevate).fields ++ rest) :
    Posted (.sendCommand command elevate) rest p (p.parseCommand u) ∨
      Reader.fed (Call.sendCommand command elevate).counts p.stream = none ∧
        Failed (.sendCommand command elevate) p (p.parseCommand u) := by
  let text := Call.cString command
  let o := Reader.fetch 4 p.stream 4
  have hfed : Reader.fed (Call.sendCommand command elevate).counts p.stream =
      if o.1.length < 4 then none else Reader.fed [text.length, 1] o.2 := rfl
  have hlt : text.length < 256 ^ 4 := lt_of_le_of_lt hfits (by decide)
  rw [Call.fields, List.append_assoc, List.append_assoc] at hunread
  rw [parseCommand_eq]
  dsimp only
  rcases Reader.fetch_block Arriving.conserves hunread 4 (BigEndian.encode_length 4 _) with
    ⟨hlength, hrest⟩ | ⟨hshort, left, hleft, hsuffix, hrest⟩
  · have hdecode : BigEndian.decode (Reader.fetch 4 p.stream 4).1 = text.length := by
      rw [hlength]
      exact BigEndian.decode_encode hlt
    have hfour : ¬(Reader.fetch 4 p.stream 4).1.length < 4 := by
      rw [hlength, BigEndian.encode_length]
      exact lt_irrefl 4
    rw [if_neg hfour, hdecode, if_neg (Nat.not_lt.mpr hfits)]
    rw [if_neg hfour] at hfed
    rcases Reader.fetch_block Arriving.conserves hrest text.length rfl with
      ⟨htext, hrest⟩ | ⟨hshort, left, hleft, hsuffix, hrest⟩
    · have hall : ¬(Reader.fetch text.length o.2 text.length).1.length < text.length := by
        rw [htext]
        exact lt_irrefl _
      rw [if_neg hall, htext]
      rw [Reader.fed, if_neg hall] at hfed
      rcases Reader.fetch_block Arriving.conserves hrest 1 rfl with ⟨hflag, hrest⟩ | ⟨hshort, left, hleft, hsuffix, hrest⟩
      · have hone : ¬(Reader.fetch 1 (Reader.fetch text.length o.2 text.length).2 1).1.length < 1 := by
          rw [hflag]
          exact lt_irrefl 1
        rw [if_neg hone, hflag]
        rw [Reader.fed, if_neg hone] at hfed
        refine .inl ⟨hthrown, ?_, hrest, hfed⟩
        have helevate : decide (BigEndian.decode [if elevate = .always then 1 else 0] ≠ 0) = decide (elevate = .always) := by
          cases elevate <;> rfl
        rw [helevate]
        rfl
      · rw [Reader.fed, if_pos hshort] at hfed
        refine .inr ⟨hfed, .inr (.inl (lost_of_left hleft hsuffix ?_ hrest))⟩
        cases elevate <;> exact forall_of_all (by decide)
    · rw [Reader.fed, if_pos hshort] at hfed
      rw [if_pos hshort]
      refine .inr ⟨hfed, failed_of_empty rfl hleft hsuffix (fun hnil => ?_) hrest⟩
      rw [hnil]
      exact List.forall_mem_nil _
  · rw [if_pos hshort] at hfed
    rw [if_pos hshort]
    exact .inr ⟨hfed, failed_of_empty rfl hleft hsuffix length_of_empty hrest⟩

lemma code_length (call : Call) : (code call.format).length = 4 := by
  cases call with
  | sendHello => exact congrArg List.length code_hello
  | sendCommand => exact congrArg List.length code_command

lemma not_stray_of_mem_drop {call : Call} {n : ℕ} (hn : n ≠ 0) : ∀ b ∈ (code call.format).drop n, 67 ≤ b.toNat ∧ b ≠ 73 := by
  have htail : ∀ b ∈ (code call.format).drop 1, 67 ≤ b.toNat ∧ b ≠ 73 := by
    cases call with
    | sendHello => exact forall_of_all (by decide)
    | sendCommand =>
      change ∀ b ∈ (code kIpcMsgCommand).drop 1, _
      exact forall_of_all (by decide)
  intro b hb
  apply htail b
  obtain ⟨m, rfl⟩ : ∃ m, n = 1 + m := ⟨n - 1, by omega⟩
  rw [← List.drop_drop] at hb
  exact List.mem_of_mem_drop hb

lemma exists_drop_code (call : Call) {n : ℕ} (hlt : n < 4) : ∃ b bs, (code call.format).drop n = b :: bs := by
  apply List.exists_cons_of_ne_nil
  rw [Ne, List.drop_eq_nil_iff, code_length]
  omega

/-- A hello whose code is cut has one of its letters for a type. -/
lemma parseHello_short {n : ℕ} (hn : n ≠ 0) (hlt : n < 4)
    (hunread : p.stream.unread = (code Call.sendHello.format).drop n ++ rest) : Failed .sendHello p (p.parseHello u) := by
  obtain ⟨b, bs, hdrop⟩ := exists_drop_code .sendHello hlt
  obtain ⟨hlarge, hb⟩ := not_stray_of_mem_drop hn b (hdrop ▸ List.mem_cons_self)
  rw [hdrop, List.cons_append, ← List.singleton_append] at hunread
  rw [parseHello_eq]
  dsimp only
  rcases Reader.fetch_block Arriving.conserves hunread 1 rfl with ⟨hblock, -⟩ | ⟨-, left, hleft, hsuffix, hrest⟩
  · have hone : ¬(Reader.fetch 1 p.stream 1).1.length < 1 := by
      rw [hblock]
      exact Nat.lt_irrefl 1
    refine .inr (.inr ⟨_, [], rfl, fun heq => ?_⟩)
    rw [if_neg hone, hblock] at heq
    injection heq with hdata
    injection hdata with hmessage
    injection hmessage with htype
    rw [BigEndian.decode_cons, kIpcClientGui] at htype
    have htimes : b.toNat * 256 ^ ([] : List UInt8).length = b.toNat := by simp
    omega
  · exact .inr (.inl (lost_of_left hleft hsuffix (List.forall_mem_singleton.mpr hb) hrest))

/-- A command whose code is cut has a length that is too large, or is taken for an empty one. -/
lemma parseCommand_short {n : ℕ} (hn : n ≠ 0) (hlt : n < 4)
    (hunread : p.stream.unread = (code (Call.sendCommand command elevate).format).drop n ++
      ((Call.sendCommand command elevate).fields ++ rest)) :
    Failed (.sendCommand command elevate) p (p.parseCommand u) := by
  let length := BigEndian.encode 4 (Call.cString command).length
  let cut := (code (Call.sendCommand command elevate).format).drop n
  have hlength : length.length = 4 := BigEndian.encode_length 4 _
  have hcut : cut.length = 4 - n := by rw [List.length_drop, code_length]
  have hblock : (cut ++ length.take n).length = 4 := by
    rw [List.length_append, hcut, List.length_take, hlength]
    omega
  rw [Call.fields, List.append_assoc] at hunread
  change p.stream.unread = cut ++ (length ++ _) at hunread
  rw [← List.take_append_drop n length, List.append_assoc, ← List.append_assoc] at hunread
  rw [parseCommand_eq]
  dsimp only
  rcases Reader.fetch_block Arriving.conserves hunread 4 hblock with ⟨hread, -⟩ | ⟨hshort, left, hleft, hsuffix, hrest⟩
  · obtain ⟨b, bs, hdrop⟩ : ∃ b bs, cut = b :: bs := exists_drop_code _ hlt
    obtain ⟨hlarge, -⟩ := not_stray_of_mem_drop hn b (hdrop.symm ▸ List.mem_cons_self : b ∈ cut)
    have hlong : ProtocolUtil.maxStringLength < BigEndian.decode (Reader.fetch 4 p.stream 4).1 := by
      have hthree : (bs ++ length.take n).length = 3 := by
        rw [hdrop] at hblock
        exact Nat.succ.inj hblock
      rw [hread, hdrop, List.cons_append, BigEndian.decode_cons, hthree, ProtocolUtil.maxStringLength]
      omega
    have hfour : ¬(Reader.fetch 4 p.stream 4).1.length < 4 := by
      rw [hread]
      exact Nat.not_lt.mpr hblock.ge
    rw [if_neg hfour, if_pos hlong]
    exact .inl rfl
  · rw [if_pos hshort]
    refine failed_of_empty rfl hleft hsuffix (fun htext b hb => ?_) hrest
    rcases List.mem_append.mp hb with hb | hb
    · exact (not_stray_of_mem_drop hn b hb).2
    · exact length_of_empty htext b (List.mem_of_mem_take hb)

lemma parseHello_command : Failed (.sendCommand command elevate) p (p.parseHello u) := by
  rw [parseHello_eq]
  refine .inr (.inr ⟨_, [], rfl, fun heq => ?_⟩)
  injection heq with hdata
  injection hdata with hmessage
  cases hmessage

lemma parseCommand_hello : Failed .sendHello p (p.parseCommand u) := by
  have hother (text : List UInt8) (flag : Bool) :
      IpcEvent.messageReceived (some (.command text flag)) ≠ .messageReceived (some Call.sendHello.message) := by
    intro heq
    injection heq with hdata
    injection hdata with hmessage
    cases hmessage
  rw [parseCommand_eq]
  dsimp only
  split_ifs
  · exact .inr (.inr ⟨_, [], rfl, hother _ _⟩)
  · exact .inl rfl
  · exact .inr (.inr ⟨_, [], rfl, hother _ _⟩)
  · exact .inr (.inr ⟨_, [], rfl, hother _ _⟩)
  · exact .inr (.inr ⟨_, [], rfl, hother _ _⟩)

lemma events_disconnect : ∃ events, p.disconnect.events = p.events ++ events ∧ ∀ e ∈ events, e = .disconnected := by
  rw [disconnect]
  split_ifs
  · exact ⟨[], (List.append_nil _).symm, List.forall_mem_nil _⟩
  · exact ⟨[.disconnected], rfl, List.forall_mem_singleton.mpr rfl⟩

lemma dispatch_stray (call : Call) : Failed call p (p.disconnect.addEvent none) := by
  obtain ⟨events, hevents, honly⟩ := events_disconnect (p := p)
  have hadded : (p.disconnect.addEvent none).events = p.events ++ (events ++ [.messageReceived none]) := by
    rw [addEvent, hevents, List.append_assoc]
  right
  right
  cases events with
  | nil =>
    refine ⟨_, [], hadded, fun heq => ?_⟩
    injection heq with hdata
    cases hdata
  | cons e events =>
    rw [List.cons_append] at hadded
    refine ⟨e, events ++ [.messageReceived none], hadded, fun heq => ?_⟩
    rw [honly e List.mem_cons_self] at heq
    cases heq

lemma dispatch_short {call : Call} {n : ℕ} {bytes : List UInt8} (hn : n ≠ 0) (hlt : n < 4)
    (hunread : p.stream.unread = (code call.format).drop n ++ (call.fields ++ rest)) :
    Failed call p (p.dispatch u bytes) := by
  rw [dispatch]
  split_ifs
  · cases call with
    | sendHello => exact parseHello_short hn hlt hunread
    | sendCommand => exact parseHello_command
  · cases call with
    | sendHello => exact parseCommand_hello
    | sendCommand => exact parseCommand_short hn hlt hunread
  · exact dispatch_stray call

lemma dispatch_whole {call : Call} (hthrown : p.thrown = false) (hfits : call.Fits)
    (hunread : p.stream.unread = call.fields ++ rest) :
    Posted call rest p (p.dispatch u (code call.format)) ∨
      Reader.fed call.counts p.stream = none ∧ Failed call p (p.dispatch u (code call.format)) := by
  cases call with
  | sendHello => exact parseHello_whole hthrown hunread
  | sendCommand command elevate =>
    have hother : code kIpcMsgCommand ≠ code kIpcMsgHello := by decide
    rw [Call.format, dispatch, if_neg hother, if_pos rfl]
    exact parseCommand_whole hthrown hfits hunread

end Dispatch

section Run

variable {held : List UInt8} {E : List IpcEvent} {calls : List Call} {q : IpcClientProxy}

lemma dispatch_events (bytes : List UInt8) : ∃ events, (p.dispatch u bytes).events = p.events ++ events ∧
    (.disconnected ∈ events → .messageReceived none ∈ events) := by
  rw [dispatch]
  split_ifs
  · rw [parseHello_eq]
    exact ⟨_, rfl, by simp⟩
  · rw [parseCommand_eq]
    dsimp only
    split_ifs
    · exact ⟨_, rfl, by simp⟩
    · exact ⟨[], (List.append_nil _).symm, by simp⟩
    · exact ⟨_, rfl, by simp⟩
    · exact ⟨_, rfl, by simp⟩
    · exact ⟨_, rfl, by simp⟩
  · obtain ⟨events, hevents, -⟩ := events_disconnect (p := p)
    refine ⟨events ++ [.messageReceived none], ?_, by simp⟩
    rw [addEvent, hevents, List.append_assoc]

lemma pass_invariant {P : IpcClientProxy → Prop} (hread : ∀ p stream, P p → P { p with stream })
    (hdispatch : ∀ p bytes, P p → P (p.dispatch u bytes)) (passes : ℕ) (h : P p) : P (pass u passes held p) := by
  induction passes generalizing p held with
  | zero => exact h
  | succ passes ih =>
    rw [pass]
    dsimp only
    split_ifs
    · exact hread _ _ h
    · exact hdispatch _ _ (hread _ _ h)
    · exact ih (hdispatch _ _ (hread _ _ h))

lemma receive_invariant {P : IpcClientProxy → Prop} (hread : ∀ p stream, P p → P { p with stream })
    (hdispatch : ∀ p bytes, P p → P (p.dispatch u bytes)) (n : ℕ) (h : P p) : P (receive u n p) := by
  induction n generalizing p with
  | zero => exact h
  | succ n ih =>
    apply ih
    rw [handleData]
    split_ifs
    · exact h
    · exact pass_invariant hread hdispatch _ h

lemma events_pass (passes : ℕ) : p.events <+: (pass u passes held p).events := by
  apply pass_invariant (P := fun q => p.events <+: q.events) (fun _ _ h => h) _ passes (List.prefix_refl _)
  intro q bytes h
  obtain ⟨events, hevents, -⟩ := dispatch_events (u := u) (p := q) bytes
  rw [hevents]
  exact h.trans (List.prefix_append _ _)

def Spoiled (E : List IpcEvent) (p : IpcClientProxy) : Prop := p.thrown = true ∨ Lost p.stream ∨ ¬p.events <+: E

lemma Failed.spoiled {call : Call} (h : Failed call p q) (hE : p.events ++ posts (call :: calls) = E) : Spoiled E q := by
  rcases h with hthrown | hlost | ⟨e, more, hevents, hne⟩
  · exact .inl hthrown
  · exact .inr (.inl hlost)
  · refine .inr (.inr fun hfront => hne ?_)
    rw [hevents, ← hE] at hfront
    exact (List.cons_prefix_cons.mp ((List.prefix_append_right_inj _).mp hfront)).1

lemma dispatch_lost {b : UInt8} {bytes : List UInt8} (hb : b ≠ 73) : .messageReceived none ∈ (p.dispatch u (b :: bytes)).events := by
  have hhello : b :: bytes ≠ code kIpcMsgHello := by
    rw [code_hello]
    exact fun heq => hb (List.cons.inj heq).1
  have hcommand : b :: bytes ≠ code kIpcMsgCommand := by
    rw [code_command]
    exact fun heq => hb (List.cons.inj heq).1
  rw [dispatch, if_neg hhello, if_neg hcommand, addEvent]
  exact List.mem_append_right _ (List.mem_singleton_self _)

lemma pass_succ (passes : ℕ) : pass u (passes + 1) held p =
    let bytes := (p.stream.read 4).1
    let q := { p with stream := (p.stream.read 4).2 }
    if bytes = [] then q
    else
      let r := q.dispatch u (bytes ++ held.drop bytes.length)
      if r.thrown then r else pass u passes (bytes ++ held.drop bytes.length) r := rfl

lemma pass_spoiled (hE : .messageReceived none ∉ E) (passes : ℕ) (hthrown : p.thrown = false) (h : Spoiled E p) :
    Spoiled E (pass u passes held p) := by
  rcases h with h | ⟨b, rest, hunread, hb⟩ | hevents
  · rw [hthrown] at h
    cases h
  · cases passes with
    | zero => exact .inr (.inl ⟨b, rest, hunread, hb⟩)
    | succ passes =>
      have hread := p.stream.read_unread 4
      rw [pass_succ]
      dsimp only
      by_cases hnil : (p.stream.read 4).1 = []
      · rw [if_pos hnil]
        rw [hnil, List.nil_append, hunread] at hread
        exact .inr (.inl ⟨b, rest, hread, hb⟩)
      · obtain ⟨c, bytes, hbytes⟩ := List.exists_cons_of_ne_nil hnil
        rw [hbytes, hunread, List.cons_append] at hread
        obtain ⟨rfl, -⟩ := List.cons.inj hread
        -- the byte begins no code, so an event is posted that is not expected
        refine .inr (.inr fun hfront => hE (hfront.subset ?_))
        rw [if_neg hnil, hbytes, List.cons_append]
        split_ifs
        · exact dispatch_lost hb
        · exact (events_pass passes).subset (dispatch_lost hb)
  · exact .inr (.inr fun hfront => hevents ((events_pass passes).trans hfront))

structure Follows (E : List IpcEvent) (calls : List Call) (p : IpcClientProxy) : Prop where
  thrown : p.thrown = false
  events : p.events ++ posts calls = E
  unread : p.stream.unread = encode calls

def Keeps (E : List IpcEvent) (whole : Prop) (calls : List Call) (q : IpcClientProxy) : Prop :=
  (∃ left, left <:+ calls ∧ Follows E left q ∧ (whole ↔ Whole left q.stream)) ∨ ¬whole ∧ Spoiled E q

lemma Keeps.refl (h : Follows E calls p) : Keeps E (Whole calls p.stream) calls p := .inl ⟨calls, List.suffix_refl _, h, Iff.rfl⟩

lemma Keeps.cons {whole : Prop} (h : Keeps E whole calls q) (call : Call) : Keeps E whole (call :: calls) q :=
  h.imp (fun ⟨left, hleft, hrest⟩ => ⟨left, hleft.trans (List.suffix_cons call calls), hrest⟩) id

lemma whole_congr {s t : Arriving} (h : s.awaited = t.awaited) : Whole calls s ↔ Whole calls t := by
  cases calls with
  | nil => exact Iff.rfl
  | cons call calls => rw [Whole, Whole, h]

lemma whole_cons {call : Call} {s : Arriving} (h : s.ready ≠ []) : Whole (call :: calls) s ↔
    4 ≤ s.ready.length ∧ ∃ t ∈ Reader.fed call.counts (s.read 4).2, Whole calls t := by
  rw [Whole, Arriving.awaited_of_ready h]

lemma read_code {call : Call} {s : Arriving} (hready : s.ready ≠ []) (hunread : s.unread = call.written ++ rest) :
    (s.read 4).1 = (code call.format).take (s.read 4).1.length ∧ (s.read 4).1.length ≠ 0 ∧ (s.read 4).1.length ≤ 4 ∧
      (s.read 4).2.unread = (code call.format).drop (s.read 4).1.length ++ (call.fields ++ rest) := by
  have hread := s.read_unread 4
  have hle : (s.read 4).1.length ≤ 4 := Arriving.conserves.le s 4
  rw [hunread, Call.written, List.append_assoc] at hread
  have htake := congrArg (List.take (s.read 4).1.length) hread
  have hdrop := congrArg (List.drop (s.read 4).1.length) hread
  rw [List.take_left, List.take_append_of_le_length (by rwa [code_length])] at htake
  rw [List.drop_left, List.drop_append_of_le_length (by rwa [code_length])] at hdrop
  refine ⟨htake, ?_, hle, hdrop⟩
  have hpos := List.length_pos_iff.mpr hready
  rw [Arriving.read, List.length_take]
  omega

lemma Posted.follows {call : Call} {stream : Arriving} (hposted : Posted call (encode calls) { p with stream } q)
    (h : Follows E (call :: calls) p) : Follows E calls q where
  thrown := hposted.thrown
  events := by
    rw [hposted.events, ← h.events, List.append_assoc]
    rfl
  unread := hposted.unread

lemma pass_keeps (hE : .messageReceived none ∉ E) (passes : ℕ) (hheld : held.length = 4) (hfits : ∀ call ∈ calls, call.Fits)
    (h : Follows E calls p) : Keeps E (Whole calls p.stream) calls (pass u passes held p) := by
  induction passes generalizing p held calls with
  | zero => exact .refl h
  | succ passes ih =>
    rw [pass_succ]
    dsimp only
    by_cases hready : p.stream.ready = []
    · have hnil : (p.stream.read 4).1 = [] := by rw [Arriving.read, hready, List.take_nil]
      have hread := p.stream.read_unread 4
      rw [hnil, List.nil_append] at hread
      rw [if_pos hnil]
      exact .inl ⟨calls, List.suffix_refl _, ⟨h.thrown, h.events, hread.trans h.unread⟩,
        (whole_congr (Arriving.awaited_read hready 4)).symm⟩
    · cases calls with
      | nil =>
        have hunread := h.unread
        rw [Arriving.unread_eq_ready] at hunread
        exact absurd (List.append_eq_nil_iff.mp hunread).1 hready
      | cons call calls =>
        obtain ⟨hbytes, hne, hle, hunread⟩ := read_code hready h.unread
        have hnil : (p.stream.read 4).1 ≠ [] := fun hnil => hne (congrArg List.length hnil)
        have hevents : { p with stream := (p.stream.read 4).2 }.events ++ posts (call :: calls) = E := h.events
        have hlength : (p.stream.read 4).1.length = min 4 p.stream.ready.length := List.length_take
        have hspoiled {r : IpcClientProxy} (hr : Spoiled E r) (held : List UInt8) :
            Spoiled E (if r.thrown then r else pass u passes held r) := by
          split_ifs with hthrown
          · exact hr
          · exact pass_spoiled hE passes (Bool.eq_false_iff.mpr hthrown) hr
        rw [if_neg hnil, whole_cons hready]
        rcases Nat.lt_or_eq_of_le hle with hshort | hfour
        · right
          refine ⟨fun hwhole => ?_, hspoiled ((dispatch_short hne hshort hunread).spoiled hevents) _⟩
          have hall := hwhole.1
          omega
        · have hcode : (p.stream.read 4).1 ++ held.drop (p.stream.read 4).1.length = code call.format := by
            rw [hfour, List.take_of_length_le (code_length call).le] at hbytes
            rw [hbytes, code_length, List.drop_of_length_le hheld.le, List.append_nil]
          rw [hfour, List.drop_of_length_le (code_length call).le, List.nil_append] at hunread
          rw [hcode]
          have hfitscall := hfits call List.mem_cons_self
          rcases dispatch_whole (u := u) (p := { p with stream := (p.stream.read 4).2 }) h.thrown hfitscall hunread with
            hposted | ⟨hfed, hfailed⟩
          · have hnext := hposted.follows h
            rw [if_neg (by rw [hnext.thrown]; decide)]
            have hwhole : (4 ≤ p.stream.ready.length ∧ ∃ t ∈ Reader.fed call.counts (p.stream.read 4).2, Whole calls t) ↔
                Whole calls ({ p with stream := (p.stream.read 4).2 }.dispatch u (code call.format)).stream := by
              rw [and_iff_right (by omega), hposted.fed]
              constructor
              · rintro ⟨t, ht, hcalls⟩
                exact Option.mem_some.mp ht ▸ hcalls
              · exact fun hcalls => ⟨_, rfl, hcalls⟩
            rw [hwhole]
            exact (ih (code_length call) (fun c hc => hfits c (List.mem_cons_of_mem _ hc)) hnext).cons call
          · right
            refine ⟨fun hwhole => ?_, hspoiled (hfailed.spoiled hevents) _⟩
            obtain ⟨-, t, ht, -⟩ := hwhole
            rw [hfed] at ht
            cases ht

lemma handleData_keeps (hE : .messageReceived none ∉ E) (hfits : ∀ call ∈ calls, call.Fits) (h : Follows E calls p) :
    Keeps E (Whole calls p.stream) calls (p.handleData u) := by
  rw [handleData, if_neg (by rw [h.thrown]; decide)]
  exact pass_keeps hE _ (List.length_ofFn) hfits h

lemma handleData_spoiled (hE : .messageReceived none ∉ E) (h : Spoiled E p) : Spoiled E (p.handleData u) := by
  rw [handleData]
  split_ifs with hthrown
  · exact h
  · exact pass_spoiled hE _ (Bool.eq_false_iff.mpr hthrown) h

lemma receive_keeps (hE : .messageReceived none ∉ E) (n : ℕ) {whole : Prop} (hfits : ∀ call ∈ calls, call.Fits)
    (h : Keeps E whole calls p) : Keeps E whole calls (receive u n p) := by
  induction n generalizing p with
  | zero => exact h
  | succ n ih =>
    apply ih
    rcases h with ⟨left, hleft, hfollows, hwhole⟩ | ⟨hwhole, hspoiled⟩
    · have hnext := handleData_keeps (u := u) hE (fun call hcall => hfits call (hleft.subset hcall)) hfollows
      rcases hnext with ⟨left', hleft', hfollows', hwhole'⟩ | ⟨hwhole', hspoiled⟩
      · exact .inl ⟨left', hleft'.trans hleft, hfollows', hwhole.trans hwhole'⟩
      · exact .inr ⟨fun h => hwhole' (hwhole.mp h), hspoiled⟩
    · exact .inr ⟨hwhole, handleData_spoiled hE hspoiled⟩

def Within (bytes arrivals : ℕ) (s : Arriving) : Prop := s.unread.length ≤ bytes ∧ s.arrivals.length ≤ arrivals

lemma Within.read {bytes arrivals : ℕ} {s : Arriving} (h : Within bytes arrivals s) (n : ℕ) : Within bytes arrivals (s.read n).2 := by
  have hread := congrArg List.length (s.read_unread n)
  rw [List.length_append] at hread
  obtain ⟨hbytes, harrivals⟩ := h
  refine ⟨by omega, ?_⟩
  rw [Arriving.arrivals_read, List.length_tail]
  omega

lemma Within.dispatch {bytes arrivals : ℕ} (h : Within bytes arrivals p.stream) (held : List UInt8) :
    Within bytes arrivals (p.dispatch u held).stream := by
  have hrun (fmt : List Char) : Within bytes arrivals (p.readf fmt).source :=
    Reader.run_invariant (P := Within bytes arrivals) (fun _ n h => h.read n) _ _ h
  rw [IpcClientProxy.dispatch]
  split_ifs
  · rw [parseHello]
    dsimp only
    split
    · exact hrun _
    · exact hrun _
  · rw [parseCommand]
    dsimp only
    split
    · exact hrun _
    · exact hrun _
  · rw [addEvent, disconnect]
    split_ifs
    · exact h
    · exact ⟨Nat.zero_le _, Nat.zero_le _⟩

lemma pass_ends (passes : ℕ) {arrivals : ℕ} (hpasses : p.stream.unread.length < passes)
    (harrivals : p.stream.arrivals.length ≤ arrivals + 1) :
    (pass u passes held p).thrown = true ∨
      (pass u passes held p).stream.held = [] ∧ (pass u passes held p).stream.arrivals.length ≤ arrivals := by
  induction passes generalizing p held with
  | zero => omega
  | succ passes ih =>
    rw [pass_succ]
    dsimp only
    have hread := congrArg List.length (p.stream.read_unread 4)
    have htail : (p.stream.read 4).2.arrivals.length ≤ arrivals := by
      rw [Arriving.arrivals_read, List.length_tail]
      omega
    split_ifs with hnil hthrown
    · right
      have hready : p.stream.ready = [] := by
        have htake : p.stream.ready.take 4 = [] := hnil
        simpa using htake
      refine ⟨?_, htail⟩
      change p.stream.ready.drop 4 = []
      rw [hready, List.drop_nil]
    · exact .inl hthrown
    · have hpos := List.length_pos_iff.mpr hnil
      rw [List.length_append] at hread
      have hwithin : Within (p.stream.read 4).2.unread.length arrivals { p with stream := (p.stream.read 4).2 }.stream :=
        ⟨Nat.le_refl _, htail⟩
      obtain ⟨hbytes, hless⟩ := hwithin.dispatch (u := u) ((p.stream.read 4).1 ++ held.drop (p.stream.read 4).1.length)
      exact ih (by omega) (by omega)

lemma receive_thrown (n : ℕ) (h : p.thrown = true) : (receive u n p).thrown = true := by
  induction n with
  | zero => exact h
  | succ n ih => rwa [receive, handleData, if_pos h]

lemma receive_ends (n : ℕ) (hheld : p.stream.held = []) (harrivals : p.stream.arrivals.length ≤ n) :
    (receive u n p).thrown = true ∨ (receive u n p).stream.unread = [] := by
  induction n generalizing p with
  | zero =>
    right
    rw [receive, Arriving.unread, hheld, List.length_eq_zero_iff.mp (Nat.le_zero.mp harrivals)]
    rfl
  | succ n ih =>
    by_cases hthrown : p.thrown = true
    · exact .inl (receive_thrown _ hthrown)
    · rw [receive, handleData, if_neg hthrown]
      rcases pass_ends (u := u) _ (Nat.lt_succ_self _) harrivals with hthrown | ⟨hheld, hless⟩
      · exact .inl (receive_thrown _ hthrown)
      · exact ih hheld hless

lemma not_mem_posts (calls : List Call) : .messageReceived none ∉ posts calls := by
  intro hmem
  obtain ⟨call, -, heq⟩ := List.mem_map.mp hmem
  injection heq with hdata
  cases hdata

lemma received_disconnected (arrivals : List (List UInt8)) (h : .disconnected ∈ (received u arrivals).events) :
    .messageReceived none ∈ (received u arrivals).events := by
  refine receive_invariant (P := fun q => .disconnected ∈ q.events → .messageReceived none ∈ q.events) (fun _ _ h => h)
    (fun q bytes hq hmem => ?_) _ (fun h => absurd h List.not_mem_nil) h
  obtain ⟨events, hevents, hposted⟩ := dispatch_events (u := u) (p := q) bytes
  rw [hevents] at hmem ⊢
  exact (List.mem_append.mp hmem).elim (fun h => List.mem_append_left _ (hq h)) fun h => List.mem_append_right _ (hposted h)

end Run

/-- The messages come out as they were written exactly if no stray code follows them, and the bytes of each code are read
together, and those of a field are never waited for. -/
theorem survives_iff (unset : Uninitialised) (calls : List Call) (stray : Option Stray) (arrivals : List (List UInt8))
    (hfits : ∀ call ∈ calls, call.Fits) (harrivals : arrivals.flatten = encode calls ++ strayBytes stray) :
    Survives unset calls stray arrivals ↔ stray = none ∧ Whole calls ⟨[], arrivals⟩ := by
  cases stray with
  | some stray =>
    refine iff_of_false (fun hsurvives => ?_) fun h => Option.some_ne_none _ h.1
    have hevents : (received unset arrivals).events = posts calls ++ [.disconnected] := hsurvives.2
    have hmem := received_disconnected (u := unset) arrivals (by
      rw [hevents]
      exact List.mem_append_right _ (List.mem_singleton_self _))
    rw [hevents] at hmem
    rcases List.mem_append.mp hmem with hmem | hmem
    · exact not_mem_posts calls hmem
    · cases List.mem_singleton.mp hmem
  | none =>
    have hE : .messageReceived none ∉ posts calls := not_mem_posts calls
    have hstart : Follows (posts calls) calls (start ⟨[], arrivals⟩) := ⟨rfl, rfl, harrivals.trans (List.append_nil _)⟩
    have hkeeps := receive_keeps (u := unset) hE arrivals.length hfits (.refl hstart)
    have hends : (received unset arrivals).thrown = true ∨ (received unset arrivals).stream.unread = [] :=
      receive_ends arrivals.length rfl (Nat.le_refl _)
    have hsurvives : Survives unset calls none arrivals ↔
        (received unset arrivals).thrown = false ∧ (received unset arrivals).events = posts calls := by
      rw [Survives, Option.isSome_none, if_neg Bool.false_ne_true, List.append_nil]
    rw [hsurvives, and_iff_right rfl]
    rcases hkeeps with ⟨left, -, hfollows, hwhole⟩ | ⟨hwhole, hspoiled⟩
    · have hthrown : (received unset arrivals).thrown = false := hfollows.thrown
      have hunread : (received unset arrivals).stream.unread = encode left := hfollows.unread
      have hevents : (received unset arrivals).events ++ posts left = posts calls := hfollows.events
      -- everything has been read, so no message is left
      cases left with
      | nil => exact iff_of_true ⟨hthrown, (List.append_nil _).symm.trans hevents⟩ (hwhole.mpr trivial)
      | cons call left =>
        rcases hends with hends | hends
        · rw [hthrown] at hends
          cases hends
        · rw [hunread, encode, List.flatMap_cons, Call.written, List.append_assoc] at hends
          have hcode := code_length call
          rw [(List.append_eq_nil_iff.mp hends).1] at hcode
          cases hcode
    · refine iff_of_false (fun ⟨hthrown, hevents⟩ => ?_) hwhole
      rcases hspoiled with hspoiled | ⟨b, rest, hunread, -⟩ | hspoiled
      · exact Bool.false_ne_true (hthrown.symm.trans hspoiled)
      · rcases hends with hends | hends
        · exact Bool.false_ne_true (hthrown.symm.trans hends)
        · exact List.cons_ne_nil b rest (hunread.symm.trans hends)
      · exact hspoiled (hevents ▸ List.prefix_refl _)

def zeros : Uninitialised := ⟨fun _ _ => 0, fun _ => 0, fun _ => 0⟩

instance Whole.decidable : ∀ calls s, Decidable (Whole calls s)
  | [], _ => .isTrue trivial
  | call :: calls, s =>
    have (t : Arriving) := Whole.decidable calls t
    inferInstanceAs (Decidable (4 ≤ s.awaited.ready.length ∧ ∃ t ∈ Reader.fed call.counts (s.awaited.read 4).2, Whole calls t))

lemma fits_core (elevate : ElevateMode) : (Call.sendCommand [99, 111, 114, 101] elevate).Fits :=
  Nat.le_of_ble_eq_true rfl

theorem survives_pieces : Survives zeros [.sendHello, .sendCommand [99, 111, 114, 101] .always] none
    [[73, 72, 69, 76, 1], [], [73, 67, 77, 68, 0, 0], [0, 4, 99], [111, 114, 101, 1]] :=
  (survives_iff zeros [.sendHello, .sendCommand [99, 111, 114, 101] .always] none _
    (List.forall_mem_cons.mpr ⟨trivial, List.forall_mem_singleton.mpr (fits_core .always)⟩) (by decide)).mpr ⟨rfl, by decide⟩

/-- Of the command only the code has come when the code is read: an empty command is posted, and the rest of it is taken for
a message that nobody sends. -/
theorem survives_split : ¬∀ unset calls stray arrivals, (∀ call ∈ calls, Call.Fits call) →
    arrivals.flatten = encode calls ++ strayBytes stray → Survives unset calls stray arrivals := by
  intro h
  have hsurvives := h zeros [.sendCommand [99, 111, 114, 101] .always] none
    [[73, 67, 77, 68], [], [0, 0, 0, 4, 99, 111, 114, 101, 1]] (List.forall_mem_singleton.mpr (fits_core .always)) (by decide)
  exact absurd hsurvives.2 (by decide)

end IpcClientProxy

end InputLeap.Ipc
