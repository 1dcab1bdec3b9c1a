import InputLeap.Ipc.LogPath
import InputLeap.Lib.Reachable

/-! The lines that the service sends come out one by one only if each is a message of its own: of several lines in one
message the window parses the first. -/

namespace InputLeap.Ipc

open InputLeap.Lib InputLeap.Protocol InputLeap.Gui

/-- What is relied on of `QString::fromUtf8`: an ASCII character stands for itself, and what comes before it is read without
it. -/
structure DecodesUtf8 (fromUtf8 : List UInt8 → Chars) : Prop where
  ascii (front back : List UInt8) (b : UInt8) (hb : b.toNat < 128) :
    ∃ rest, fromUtf8 (front ++ b :: back) = fromUtf8 front ++ Char.ofNat b.toNat :: rest ∧ (back = [] → rest = [])
  only (bytes : List UInt8) (b : UInt8) (hb : b.toNat < 128) (hmem : b ∉ bytes) : Char.ofNat b.toNat ∉ fromUtf8 bytes

def blank (line : Line) : Bool := line.all CoreProcess.isSpace

namespace LogPath

/-- Whenever lines are sent there is one of them, whose length an `int` can hold, and no line is blank. -/
def Single (s : LogPath) : LogEvent → Prop
  | .write text _ _ => blank text = false
  | .wake hasClients =>
    hasClients = true → s.outputter.buffer.length ≤ 1 ∧ ∀ line ∈ s.outputter.buffer, line.length + 1 < 2 ^ 31

def written (events : List LogEvent) : List Line :=
  events.filterMap fun e =>
    match e with
    | .write text _ _ => some text
    | .wake _ => none

def run (events : List LogEvent) (s : LogPath) : LogPath := events.foldl next s

def frame (line : Line) : List UInt8 :=
  code kIpcMsgLogLine ++ (BigEndian.encode 4 (line.length + 1) ++ (line ++ [CoreProcess.newline]))

variable {fromUtf8 : List UInt8 → Chars} {s : LogPath} {line : Line} {ls : List Line}

section Service

lemma logLineBytes_line (hshort : line.length + 1 < 2 ^ 31) : logLineBytes (line ++ [CoreProcess.newline]) = some (frame line) := by
  have hlength : (line ++ [CoreProcess.newline]).length = line.length + 1 := by simp
  have hmod : (line.length + 1) % 2 ^ 32 = line.length + 1 := Nat.mod_eq_of_lt (by omega)
  have hparse : ProtocolUtil.parse none kIpcMsgLogLine =
      some [.literal 'I', .literal 'L', .literal 'O', .literal 'G', .spec .string] := by decide
  have hstring : ProtocolUtil.Kind.string.written [.string (some (line ++ [CoreProcess.newline]))] =
      some (BigEndian.encode 4 (line.length + 1) ++ (line ++ [CoreProcess.newline]), []) := by
    rw [ProtocolUtil.Kind.written, ProtocolUtil.Kind.stored, Option.getD_some, hlength, hmod,
      List.take_of_length_le hlength.le]
    rfl
  have hcount : ProtocolUtil.Kind.string.length [.string (some (line ++ [CoreProcess.newline]))] =
      some (4 + (line.length + 1), []) := by
    rw [ProtocolUtil.Kind.length, ProtocolUtil.Kind.size, hlength, hmod, Nat.mod_eq_of_lt (by omega)]
    rfl
  apply ProtocolUtil.writef_eq_some
  · rw [ProtocolUtil.getLength, hparse, Option.bind_some]
    simp only [ProtocolUtil.lengthItems, hcount, Option.bind_some, Option.map_some]
    rw [frame, List.length_append, List.length_append, BigEndian.encode_length, hlength]
    congr 1
    have hcode : (code kIpcMsgLogLine).length = 4 := by decide
    omega
  · rw [ProtocolUtil.writefVoid, hparse, Option.bind_some]
    simp only [ProtocolUtil.writeItems, hstring, Option.bind_some, Option.map_some, List.append_nil]
    rfl

lemma message_steps (fromUtf8 : List UInt8 → Chars) (hshort : line.length + 1 < 2 ^ 31) : Reader.Steps (IpcReader.message fromUtf8) (frame line)
    [fromUtf8 (line ++ [CoreProcess.newline])] .done := by
  have hdecode : BigEndian.decode (BigEndian.encode 4 (line.length + 1)) = line.length + 1 :=
    BigEndian.decode_encode (by omega)
  have hint : IpcReader.bytesToInt (BigEndian.encode 4 (line.length + 1)) = (line.length + 1 : ℕ) := by
    rw [IpcReader.bytesToInt, hdecode]
    exact if_pos hshort
  refine .read (code kIpcMsgLogLine) (by decide) ?_
  rw [if_pos rfl]
  refine .read _ (BigEndian.encode_length 4 _) ?_
  rw [hint, if_neg (by omega), Int.toNat_natCast]
  have hdata : Reader.Steps (.read (line.length + 1) fun data => .store (fromUtf8 data) .done : Reader IpcReader.Stop Chars)
      ((line ++ [CoreProcess.newline]) ++ []) [fromUtf8 (line ++ [CoreProcess.newline])] .done :=
    .read _ (by simp) (.stored_one _ _)
  rwa [List.append_nil] at hdata

lemma length_le_frames (ls : List Line) : ls.length ≤ (ls.flatMap frame).length := by
  induction ls with
  | nil => exact Nat.le_refl _
  | cons line ls ih =>
    rw [List.flatMap_cons, List.length_append, List.length_cons, frame, List.length_append, List.length_append,
      BigEndian.encode_length]
    omega

lemma read_frames (hshort : ∀ line ∈ ls, line.length + 1 < 2 ^ 31) {passes : ℕ} (hpasses : ls.length ≤ passes) {p : Pieces}
    (hp : Pieces.Holds (ls.flatMap frame) p) :
    IpcReader.read fromUtf8 passes p = ls.map fun line => fromUtf8 (line ++ [CoreProcess.newline]) := by
  induction ls generalizing passes p with
  | nil =>
    obtain ⟨hflatten, hnonempty⟩ := hp
    have hpieces : p.pieces = [] := by
      apply List.eq_nil_iff_forall_not_mem.mpr
      intro piece hpiece
      exact hnonempty ((List.flatten_eq_nil_iff.mp hflatten piece hpiece) ▸ hpiece)
    cases passes with
    | zero => rfl
    | succ passes => rw [IpcReader.read, if_pos hpieces, List.map_nil]
  | cons line ls ih =>
    cases passes with
    | zero => cases hpasses
    | succ passes =>
      have hpieces : p.pieces ≠ [] := by
        intro hnil
        have hflatten := hp.1
        rw [hnil, List.flatten_nil, List.flatMap_cons, frame, List.append_assoc] at hflatten
        exact absurd (List.append_eq_nil_iff.mp hflatten.symm).1 (by decide)
      obtain ⟨t, ht, hrun⟩ := (message_steps fromUtf8 (hshort line List.mem_cons_self)).run Pieces.delivers .waiting hp
      rw [IpcReader.read, if_neg hpieces, hrun]
      have hrest := ih (fun other hother => hshort other (List.mem_cons_of_mem _ hother)) (Nat.le_of_succ_le_succ hpasses) ht
      rw [List.map_cons, ← hrest]
      rfl

end Service

section Child

lemma takeLine_parsed (h : DecodesUtf8 fromUtf8) (hline : CoreProcess.newline ∉ line) (hblank : blank line = false)
    (received : List Chars) : (CoreProcess.takeLine fromUtf8 received line).map CoreEventParser.splitLine =
      received.map CoreEventParser.splitLine ++ [CoreEventParser.splitLine (fromUtf8 line)] := by
  have hbreak : '\n' ∉ fromUtf8 line := h.only line CoreProcess.newline (by decide) hline
  rw [CoreProcess.takeLine]
  split_ifs with hreturn hspace hspace
  · obtain ⟨front, rfl⟩ := List.getLast?_eq_some_iff.mp hreturn
    rw [List.dropLast_concat] at hspace
    rw [blank, List.all_append, hspace] at hblank
    cases hblank
  · obtain ⟨front, rfl⟩ := List.getLast?_eq_some_iff.mp hreturn
    obtain ⟨rest, hrest, hnil⟩ := h.ascii front [] CoreProcess.carriageReturn (by decide)
    rw [hnil rfl] at hrest
    have hfront : '\n' ∉ fromUtf8 front := by
      rw [hrest] at hbreak
      exact fun hmem => hbreak (List.mem_append_left _ hmem)
    rw [hrest, List.dropLast_concat, List.map_append, List.map_singleton]
    congr 2
    exact (CoreEventParser.splitLine_append_return hfront).symm
  · rw [blank, hspace] at hblank
    cases hblank
  · rw [List.map_append, List.map_singleton]

lemma foldl_takeLine (h : DecodesUtf8 fromUtf8) (hls : ∀ line ∈ ls, CoreProcess.newline ∉ line ∧ blank line = false)
    (received : List Chars) : (ls.foldl (CoreProcess.takeLine fromUtf8) received).map CoreEventParser.splitLine =
      received.map CoreEventParser.splitLine ++ ls.map fun line => CoreEventParser.splitLine (fromUtf8 line) := by
  induction ls generalizing received with
  | nil => exact (List.append_nil _).symm
  | cons line ls ih =>
    obtain ⟨hline, hblank⟩ := hls line List.mem_cons_self
    rw [List.foldl_cons, ih (fun other hother => hls other (List.mem_cons_of_mem _ hother)), takeLine_parsed h hline hblank,
      List.append_assoc]
    rfl

lemma foldl_readLines (chunks : List (List UInt8)) {o : CoreProcess.Output}
    (hpending : Lines.lines CoreProcess.newline o.pending = []) :
    (chunks.foldl (CoreProcess.readLines fromUtf8) o).received =
      (Lines.lines CoreProcess.newline (o.pending ++ chunks.flatten)).foldl (CoreProcess.takeLine fromUtf8) o.received := by
  induction chunks generalizing o with
  | nil => rw [List.foldl_nil, List.flatten_nil, List.append_nil, hpending, List.foldl_nil]
  | cons chunk chunks ih =>
    let bytes := o.pending ++ chunk
    have hrest : Lines.lines CoreProcess.newline (Lines.unfinished CoreProcess.newline bytes) = [] := by
      have hsplit := (Lines.lines_append CoreProcess.newline bytes []).1
      rw [List.append_nil, List.append_nil] at hsplit
      exact List.append_right_eq_self.mp hsplit.symm
    have hread : CoreProcess.readLines fromUtf8 o chunk = ⟨Lines.unfinished CoreProcess.newline bytes,
        (Lines.lines CoreProcess.newline bytes).foldl (CoreProcess.takeLine fromUtf8) o.received⟩ := by
      rw [CoreProcess.readLines, Lines.drain_always (fun _ => rfl) _ (Nat.le_refl _)]
    rw [List.foldl_cons, hread, ih hrest, List.flatten_cons, ← List.append_assoc, (Lines.lines_append _ bytes _).1, List.foldl_append]

end Child

section Run

variable {sent : List Line}

/-- The lines that were sent, each in a message of its own, and those that are to be sent are the lines that were kept. -/
structure LogInv (sent : List Line) (s : LogPath) : Prop where
  kept : s.kept = sent ++ s.outputter.buffer
  wire : s.wire = sent.flatMap frame
  short : ∀ line ∈ sent, line.length + 1 < 2 ^ 31
  lines : ∀ line ∈ s.kept, CoreProcess.newline ∉ line ∧ blank line = false

lemma buffer_appendBuffer {o : IpcLogOutputter} {now : ℚ} (h : o.refuses now = false) (text : Line) (later : ℚ) :
    (o.appendBuffer text now later).buffer = (if o.full then o.buffer.tail else o.buffer) ++ [text] := by
  rw [IpcLogOutputter.appendBuffer, if_neg (Bool.eq_false_iff.mp h)]
  by_cases hsecond : now - o.rateStart < kBufferRateTimeLimit
  · rw [if_pos hsecond]
  · rw [if_neg hsecond]
    rfl

lemma LogInv.write (h : LogInv sent s) {text : Line} (hline : CoreProcess.newline ∉ text) (hblank : blank text = false)
    (now later : ℚ) : LogInv sent (s.next (.write text now later)) := by
  rw [next]
  by_cases hrefused : s.outputter.refuses now = true
  · rw [keep, IpcLogOutputter.appendBuffer, if_pos hrefused, if_pos hrefused]
    exact h
  · have hbuffer := buffer_appendBuffer (Bool.eq_false_iff.mpr hrefused) text later
    have hkept : s.keep text now = sent ++ (s.outputter.appendBuffer text now later).buffer := by
      have hindex : s.kept.length - s.outputter.buffer.length = sent.length := by
        rw [h.kept, List.length_append]
        omega
      rw [keep, if_neg hrefused, hbuffer, ← List.append_assoc]
      split_ifs
      · rw [hindex, h.kept, List.eraseIdx_append_of_length_le (Nat.le_refl _), Nat.sub_self, List.eraseIdx_zero]
      · rw [h.kept]
    refine ⟨hkept, h.wire, h.short, fun line hmem => ?_⟩
    change line ∈ s.keep text now at hmem
    rw [keep, if_neg hrefused] at hmem
    rcases List.mem_append.mp hmem with hmem | hmem
    · apply h.lines
      split_ifs at hmem
      · exact List.mem_of_mem_eraseIdx hmem
      · exact hmem
    · obtain rfl := List.mem_singleton.mp hmem
      exact ⟨hline, hblank⟩

lemma LogInv.wake (h : LogInv sent s) {hasClients : Bool} (hsingle : s.Single (.wake hasClients)) :
    ∃ sent', LogInv sent' (s.next (.wake hasClients)) := by
  rw [next, sendBuffer]
  split_ifs with hnothing
  · exact ⟨sent, h⟩
  · obtain ⟨hbuffer, hclients⟩ := not_or.mp hnothing
    obtain ⟨hle, hshort⟩ := hsingle (Bool.eq_true_of_not_eq_false hclients)
    obtain ⟨line, hline⟩ : ∃ line, s.outputter.buffer = [line] :=
      List.length_eq_one_iff.mp (le_antisymm hle (List.length_pos_iff.mpr hbuffer))
    have hlength := hshort line (hline ▸ List.mem_singleton_self line)
    have hchunk : (s.outputter.getChunk kMaxSendLines).1 = line ++ [CoreProcess.newline] := by
      rw [IpcLogOutputter.getChunk, hline]
      exact List.append_nil _
    have hrest : (s.outputter.getChunk kMaxSendLines).2.buffer = [] := by
      rw [IpcLogOutputter.getChunk, hline]
      rfl
    refine ⟨sent ++ [line], ?_, ?_, ?_, h.lines⟩
    · rw [hrest, List.append_nil, ← hline]
      exact h.kept
    · dsimp only
      rw [hchunk, logLineBytes_line hlength, Option.getD_some, h.wire, List.flatMap_append, List.flatMap_singleton]
    · intro other hother
      rcases List.mem_append.mp hother with hother | hother
      · exact h.short other hother
      · exact (List.mem_singleton.mp hother) ▸ hlength

lemma run_inv {events : List LogEvent} (h : LogInv sent s)
    (hlines : ∀ text ∈ written events, CoreProcess.newline ∉ text)
    (hsingle : Along (fun s e => some (next s e)) Single events s) : ∃ sent', LogInv sent' (run events s) := by
  induction events generalizing s sent with
  | nil => exact ⟨sent, h⟩
  | cons e events ih =>
    have hrest := hsingle.2 _ rfl
    cases e with
    | write text now later =>
      have hfirst := hlines text List.mem_cons_self
      exact ih (h.write hfirst hsingle.1 now later) (fun other hmem => hlines other (List.mem_cons_of_mem _ hmem)) hrest
    | wake hasClients =>
      obtain ⟨sent', hwake⟩ := h.wake hsingle.1
      exact ih hwake hlines hrest

lemma LogInv.delivers (hdecodes : DecodesUtf8 fromUtf8) (h : LogInv sent s) : Delivers fromUtf8 s where
  service pieces hnonempty hwire := by
    have hpasses : sent.length ≤ pieces.flatten.length := by
      rw [hwire, h.wire]
      exact length_le_frames sent
    have hsent (line : Line) (hmem : line ∈ sent) : CoreEventParser.splitLine (fromUtf8 (line ++ [CoreProcess.newline])) =
        CoreEventParser.splitLine (fromUtf8 line) := by
      have hline := (h.lines line (h.kept ▸ List.mem_append_left _ hmem)).1
      obtain ⟨rest, hrest, -⟩ := hdecodes.ascii line [] CoreProcess.newline (by decide)
      rw [hrest]
      exact CoreEventParser.splitLine_append (hdecodes.only line CoreProcess.newline (by decide) hline) rest
    rw [serviceLines, read_frames h.short hpasses ⟨hwire.trans h.wire, hnonempty⟩, h.kept, List.map_append, List.map_map]
    congr 1
    exact List.map_congr_left hsent
  child chunks houtput := by
    have hlines := Lines.lines_flatMap fun line hmem => (h.lines line hmem).1
    rw [childLines, foldl_readLines chunks rfl, List.nil_append, houtput, Lines.lines, hlines, foldl_takeLine hdecodes h.lines]
    rfl

end Run

/-- In a run that sends one line at a time, and none that is blank, what the window parses is what it would parse of a child's
output. -/
theorem delivers_single (h : DecodesUtf8 fromUtf8) (rateStart : ℚ) (events : List LogEvent)
    (hlines : ∀ text ∈ written events, CoreProcess.newline ∉ text)
    (hsingle : Along (fun s e => some (next s e)) Single events (start rateStart)) :
    Delivers fromUtf8 (run events (start rateStart)) := by
  have hstart : LogInv [] (start rateStart) := ⟨rfl, rfl, List.forall_mem_nil _, List.forall_mem_nil _⟩
  obtain ⟨sent, hinv⟩ := run_inv hstart hlines hsingle
  exact hinv.delivers h

instance Single.decidable (s : LogPath) : ∀ e, Decidable (Single s e)
  | .write text _ _ => inferInstanceAs (Decidable (blank text = false))
  | .wake hasClients =>
    have : Decidable (∀ line ∈ s.outputter.buffer, line.length + 1 < 2 ^ 31) :=
      List.decidableBAll (fun line => line.length + 1 < 2 ^ 31) s.outputter.buffer
    inferInstanceAs (Decidable (hasClients = true → _ ∧ _))

def latin (bytes : List UInt8) : Chars := bytes.map fun b => Char.ofNat b.toNat

lemma toNat_latin (b : UInt8) : (Char.ofNat b.toNat).toNat = b.toNat := by
  have hvalid : b.toNat.isValidChar := .inl (lt_trans b.toNat_lt (by decide))
  rw [Char.ofNat, dif_pos hvalid]
  rfl

lemma latin_decodes : DecodesUtf8 latin where
  ascii front back b _ := ⟨latin back, List.map_append, fun hnil => hnil ▸ rfl⟩
  only bytes b _ hmem h := by
    obtain ⟨c, hc, heq⟩ := List.mem_map.mp h
    have hnat : c.toNat = b.toNat := by rw [← toNat_latin c, ← toNat_latin b, heq]
    exact hmem (UInt8.toNat_inj.mp hnat ▸ hc)

theorem delivers_two : Delivers latin (run [.write [97] 0 0, .wake true, .write [98] 0 0, .wake true] (start 0)) :=
  delivers_single latin_decodes 0 _ (by decide) (by decide +kernel)

/-- Two lines in one message. -/
theorem delivers_first : ¬∀ fromUtf8 rateStart events, DecodesUtf8 fromUtf8 →
    (∀ text ∈ written events, CoreProcess.newline ∉ text) →
    Delivers fromUtf8 (run events (start rateStart)) := by
  intro h
  have hservice := (h latin 0 [.write [97] 0 0, .write [98] 0 0, .wake true] latin_decodes (by decide)).service
    [[73, 76, 79, 71, 0, 0, 0, 4, 97, 10, 98, 10]] (by decide) (by decide +kernel)
  exact absurd hservice (by decide +kernel)

end LogPath

end InputLeap.Ipc
