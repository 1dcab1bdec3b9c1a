import InputLeap.Protocol.MessageLoop

/-! A connection as one of its ends sees it. Input arrives in pieces of any size, the queue dispatches the events
of the filter at its leisure, and in between other things happen to the end. -/

namespace InputLeap.Protocol

open InputLeap.Lib InputLeap.Io

structure Link (S E : Type) where
  filter : PacketStreamFilter StreamBuffer
  /-- The events `STREAM_INPUT_READY` in the queue. -/
  inputReady : ℕ
  state : S
  connected : Bool
  /-- History: what `handle_data` has asked of others. -/
  effects : List E

inductive LinkStep (O : Type)
  /-- The socket has input, and these are its answers to the reads of the filter. -/
  | input (reads : List (List UInt8))
  /-- An event `STREAM_INPUT_READY` is dispatched. -/
  | dispatch
  | own (o : O)

/-- What an end goes through, the messages of one call of `handle_data` at a time. -/
inductive Stage (O : Type)
  | batch (ms : List Packet)
  | own (o : O)

variable {S E O : Type}

namespace Stage

def messages : Stage O → List Packet
  | batch ms => ms
  | own _ => []

def own? : Stage O → Option O
  | batch _ => none
  | own o => some o

end Stage

namespace LinkStep

def op? : LinkStep O → List Op
  | input reads => [.inputReady reads]
  | dispatch => []
  | own _ => []

def own? : LinkStep O → Option O
  | own o => some o
  | _ => none

end LinkStep

def arrivedIn (steps : List (LinkStep O)) : List UInt8 := arrivedBy (steps.flatMap LinkStep.op?)

namespace Link

variable (p : Endpoint S E) (own : O → S → S)

def input (l : Link S E) (reads : List (List UInt8)) : Link S E :=
  let (filter, output) := l.filter.filterInputReady reads
  { l with filter := filter, inputReady := l.inputReady + output.events.count .inputReady }

def handleData (l : Link S E) : Link S E :=
  let (a, filter) := p.handleData (l.filter.buffer.toList.length + 1) l.state l.filter
  { l with
    filter := filter
    state := a.state
    connected := decide (a.next = .goOn)
    effects := l.effects ++ a.effects }

/-- The handlers of an end that has disconnected are gone. -/
def step (l : Link S E) : LinkStep O → Link S E
  | .input reads => if l.connected then l.input reads else l
  | .dispatch =>
    if l.inputReady = 0 then l
    else if l.connected then { l with inputReady := l.inputReady - 1 }.handleData p
    else { l with inputReady := l.inputReady - 1 }
  | .own o => if l.connected then { l with state := own o l.state } else l

def run (l : Link S E) (steps : List (LinkStep O)) : Link S E := steps.foldl (step p own) l

/-- The buffer can count the bytes of its chunks and what arrives. -/
def Fits (l : Link S E) : List (LinkStep O) → Prop
  | [] => True
  | st :: steps => l.filter.buffer.stored + (arrivedIn [st]).length < 2 ^ 32 ∧ (l.step p own st).Fits steps

end Link

/-- The stages one after the other, up to the one in which the end disconnects. -/
def Endpoint.goThrough (p : Endpoint S E) (own : O → S → S) : S → List (Stage O) → Reaction S E
  | s, [] => ⟨s, [], .goOn⟩
  | s, .own o :: stages => p.goThrough own (own o s) stages
  | s, .batch ms :: stages =>
    let a := p.takeAll s ms
    if a.next = .goOn then (p.goThrough own a.state stages).after a.effects else a

section Run

variable {p : Endpoint S E} {own : O → S → S} {s : S} {stages : List (Stage O)}

lemma Endpoint.goThrough_concat (stage : Stage O) (h : (p.goThrough own s stages).next = .goOn) :
    p.goThrough own s (stages ++ [stage]) =
      (p.goThrough own (p.goThrough own s stages).state [stage]).after (p.goThrough own s stages).effects := by
  induction stages generalizing s with
  | nil => rfl
  | cons first stages ih =>
    cases first with
    | own o => exact ih h
    | batch ms =>
      simp only [goThrough, List.cons_append] at h ⊢
      split_ifs at h ⊢ with hgo
      · simp only [Reaction.after_next] at h
        rw [ih h]
        simp [Reaction.after]
      · exact absurd h hgo

lemma Endpoint.goThrough_batch (s : S) (ms : List Packet) : p.goThrough own s [.batch ms] = p.takeAll s ms := by
  simp only [goThrough]
  split_ifs with hgo
  · simp only [Reaction.after, List.append_nil]
    exact congrArg (Reaction.mk _ _) hgo.symm
  · rfl

namespace Framer

open PacketStreamFilter hiding read write

lemma Queued.eq_last {last f : Framer} (h : Queued last f []) : f = last ∧ last.isReady = false := by
  cases h with
  | nil hr => exact ⟨rfl, hr⟩

lemma Queued.length_le {last f : Framer} {ps : List (List UInt8)} (h : Queued last f ps) :
    ps.length ≤ f.buffer.bytes.length := by
  induction h with
  | nil hr => exact Nat.zero_le _
  | cons hr _ ih => exact Nat.succ_le_of_lt (ih.trans_lt (popPacket_length_lt hr))

end Framer

variable {before : List (List UInt8)} {messages taken : List Packet} {arrived : List UInt8} {l : Link S E}

/-- What is on the wire: some packets that are read by others, and the messages. -/
def packets (before : List (List UInt8)) (messages : List Packet) : List (List UInt8) :=
  before ++ messages.map Packet.bytes

/-- The messages that have been taken are behind us, and the rest are still to come. A packet that is complete has
been announced. -/
structure Link.At (before : List (List UInt8)) (messages : List Packet) (arrived : List UInt8) (taken : List Packet)
    (l : Link S E) : Prop where
  framed : Framer.Framed (packets before messages) arrived l.filter.framer ⟨packets before taken, []⟩
  room : l.filter.buffer.stored < 2 ^ 32
  announced : l.filter.isReady = true → 0 < l.inputReady

structure Link.Reached (p : Endpoint S E) (own : O → S → S) (s : S) (stages : List (Stage O)) (l : Link S E) : Prop where
  state : l.state = (p.goThrough own s stages).state
  effects : l.effects = (p.goThrough own s stages).effects
  connected : l.connected = true ↔ (p.goThrough own s stages).next = .goOn

namespace Link

lemma At.input (hpackets : ∀ q ∈ packets before messages, q ≠ [] ∧ q.length ≤ maxMessageLength)
    (h : l.At before messages arrived taken) (reads : List (List UInt8))
    (hpre : arrived ++ (Op.inputReady reads).arrived <+: wire (packets before messages))
    (hroom : l.filter.buffer.stored + (Op.inputReady reads).arrived.length < 2 ^ 32) :
    (l.input reads).At before messages (arrived ++ (Op.inputReady reads).arrived) taken := by
  have harrived : arrivedBy [.inputReady reads] = (Op.inputReady reads).arrived := by simp [arrivedBy]
  have hops : ∀ op ∈ [Op.inputReady reads], op ≠ .inputShutdown := by simp
  obtain ⟨hframed, hlt⟩ := PacketStreamFilter.framed_run hpackets hops h.framed (by rwa [harrived]) h.room
    ⟨hroom, trivial⟩
  rw [harrived] at hframed
  have hcollect : l.filter.collect ⟨packets before taken, []⟩ [.inputReady reads] = ⟨packets before taken, []⟩ := by
    simp [PacketStreamFilter.collect, PacketStreamFilter.step, PacketStreamFilter.filterInputReady,
      PacketStreamFilter.endsPacket, Received.add]
  rw [hcollect] at hframed
  refine ⟨hframed, hlt, fun hready => ?_⟩
  rw [Link.input]
  cases hwas : l.filter.isReady with
  | true => exact Nat.add_pos_left (h.announced hwas) _
  | false =>
    refine Nat.add_pos_right _ (List.count_pos_iff.mpr ?_)
    have hnow : (l.filter.readLoop reads).1.isReady = true := hready
    simp [PacketStreamFilter.filterInputReady, PacketStreamFilter.readMore, hwas, hnow]

lemma handleData_framed (hunderstands : ∀ m ∈ messages, p.Understands m)
    (hpackets : ∀ q ∈ packets before messages, q ≠ [] ∧ q.length ≤ maxMessageLength)
    (hframed : Framer.Framed (packets before messages) arrived l.filter.framer ⟨packets before taken, []⟩)
    (hroom : l.filter.buffer.stored < 2 ^ 32) (htaken : taken <+: messages)
    (hpre : arrived <+: wire (packets before messages)) :
    ∃ ms, taken ++ ms <+: messages ∧ (l.handleData p).state = (p.takeAll l.state ms).state ∧
      (l.handleData p).effects = l.effects ++ (p.takeAll l.state ms).effects ∧
      ((l.handleData p).connected = true ↔ (p.takeAll l.state ms).next = .goOn) ∧
      ((l.handleData p).connected = true → (l.handleData p).At before messages arrived (taken ++ ms) ∧
        (l.handleData p).filter.isReady = false) := by
  obtain ⟨more, rfl⟩ := htaken
  obtain ⟨last, ps, hqueued, hlast⟩ :=
    hframed.queued hpackets hpre ((StreamBuffer.toList_length_le _).trans_lt hroom)
  obtain ⟨rest, hrest, -⟩ := hlast.packets_prefix hpackets
  have hmore : more.map Packet.bytes = ps ++ rest := by
    simpa [packets] using hrest
  obtain ⟨ms, others, rfl, hps, -⟩ := List.map_eq_append_iff.mp hmore
  have hunder : ∀ m ∈ ms, p.Understands m := fun m hm => hunderstands m (by simp [hm])
  have hfuel : ms.length < l.filter.buffer.toList.length + 1 := by
    have hlength := hqueued.length_le
    rw [← hps, List.length_map] at hlength
    exact Nat.lt_succ_of_le hlength
  obtain ⟨haction, hholds⟩ := p.handleData_alike (PacketStreamFilter.holds_indistinct last)
    (l.filter.buffer.toList.length + 1) l.state (f := l.filter) (t := ⟨ms.map Packet.bytes⟩) (by rw [hps]; exact ⟨hqueued, hroom⟩)
  obtain ⟨htake, hempty⟩ := Endpoint.handleData_pieces hunder hfuel l.state
  rw [htake] at haction
  obtain ⟨g, hrun⟩ : ∃ g, p.handleData (l.filter.buffer.toList.length + 1) l.state l.filter = (p.takeAll l.state ms, g) :=
    ⟨_, Prod.ext haction rfl⟩
  rw [hrun] at hholds
  rw [Link.handleData, hrun]
  refine ⟨ms, ⟨others, List.append_assoc ..⟩, rfl, rfl, decide_eq_true_iff, fun hconnected => ?_⟩
  rw [hempty (of_decide_eq_true hconnected)] at hholds
  obtain ⟨hdrained, hr⟩ := hholds.1.eq_last
  have hnot : g.isReady = false := by rw [← PacketStreamFilter.framer_isReady, hdrained, hr]
  refine ⟨⟨?_, hholds.2, fun hready => absurd (hnot.symm.trans hready) Bool.false_ne_true⟩, hnot⟩
  rw [hdrained]
  simpa [packets, hps] using hlast

lemma Reached.goOn (h : l.Reached p own s stages) (hconnected : l.connected = true) (stage : Stage O) :
    p.goThrough own s (stages ++ [stage]) = (p.goThrough own l.state [stage]).after l.effects := by
  rw [Endpoint.goThrough_concat stage (h.connected.mp hconnected), h.state, h.effects]

lemma Reached.apart (h : l.Reached p own s stages) (hconnected : l.connected = true) (o : O) :
    ({ l with state := own o l.state } : Link S E).Reached p own s (stages ++ [.own o]) := by
  have hgo := h.goOn hconnected (.own o)
  refine ⟨?_, ?_, ?_⟩
  · rw [hgo]
    rfl
  · rw [hgo]
    exact (List.append_nil _).symm
  · rw [hgo]
    exact iff_of_true hconnected rfl

lemma Reached.batch {ms : List Packet} {t : Link S E} (h : l.Reached p own s stages) (hconnected : l.connected = true)
    (hstate : t.state = (p.takeAll l.state ms).state) (heffects : t.effects = l.effects ++ (p.takeAll l.state ms).effects)
    (hnext : t.connected = true ↔ (p.takeAll l.state ms).next = .goOn) :
    t.Reached p own s (stages ++ [.batch ms]) := by
  have hgo := h.goOn hconnected (.batch ms)
  rw [Endpoint.goThrough_batch] at hgo
  exact ⟨by rw [hgo]; exact hstate, by rw [hgo]; exact heffects, by rw [hgo]; exact hnext⟩

lemma packets_concat (before : List (List UInt8)) (ms : List Packet) (m : Packet) :
    packets before (ms ++ [m]) = packets before ms ++ [m.bytes] := by
  simp [packets]

lemma completePacket_of_lt (htaken : taken <+: messages) {n : ℕ} (hlt : taken.length < n) (hn : n ≤ messages.length)
    (hwire : wire (packets before (messages.take n)) <+: arrived) :
    CompletePacket (packets before messages) arrived ⟨packets before taken, []⟩ := by
  obtain ⟨more, rfl⟩ := htaken
  cases more with
  | nil =>
    rw [List.append_nil] at hn
    omega
  | cons m more =>
    refine ⟨m.bytes, more.map Packet.bytes, by simp [packets], ?_⟩
    have htake : taken ++ [m] <+: (taken ++ m :: more).take n := by
      rw [List.prefix_take_iff]
      exact ⟨⟨more, by simp⟩, by simpa using Nat.succ_le_of_lt hlt⟩
    obtain ⟨rest, hrest⟩ := htake
    rw [← hrest, packets, List.map_append, ← List.append_assoc, wire_append] at hwire
    exact (packets_concat before taken m).symm ▸ (List.prefix_append _ _).trans hwire

/-- The state of a run: the stages are made of the messages and of what has happened in between. -/
structure Kept (p : Endpoint S E) (own : O → S → S) (s : S) (before : List (List UInt8)) (messages : List Packet)
    (arrived : List UInt8) (owns : List O) (stages : List (Stage O)) (l : Link S E) : Prop where
  taken : stages.flatMap Stage.messages <+: messages
  reached : l.Reached p own s stages
  at_messages : l.connected = true → l.At before messages arrived (stages.flatMap Stage.messages)
  own_prefix : stages.filterMap Stage.own? <+: owns
  all : l.connected = true → stages.filterMap Stage.own? = owns

lemma Kept.gone {owns : List O} (h : l.Kept p own s before messages arrived owns stages) (hgone : l.connected = false)
    {t : Link S E} (heq : t.state = l.state ∧ t.effects = l.effects ∧ t.connected = l.connected) (more : List UInt8)
    (others : List O) : t.Kept p own s before messages (arrived ++ more) (owns ++ others) stages := by
  obtain ⟨hstate, heffects, hconnected⟩ := heq
  have hnot : ∀ {P : Prop}, t.connected = true → P := fun htrue =>
    absurd ((hgone.symm.trans hconnected.symm).trans htrue) Bool.false_ne_true
  exact ⟨h.taken, ⟨hstate.trans h.reached.state, heffects.trans h.reached.effects, hconnected ▸ h.reached.connected⟩, hnot,
    h.own_prefix.trans (List.prefix_append _ _), hnot⟩

section Step

variable (hunderstands : ∀ m ∈ messages, p.Understands m)
  (hpackets : ∀ q ∈ packets before messages, q ≠ [] ∧ q.length ≤ maxMessageLength)
include hunderstands hpackets

lemma Kept.step {owns : List O} (h : l.Kept p own s before messages arrived owns stages) (st : LinkStep O)
    (hpre : arrived ++ arrivedIn [st] <+: wire (packets before messages))
    (hroom : l.filter.buffer.stored + (arrivedIn [st]).length < 2 ^ 32) :
    ∃ stages', (l.step p own st).Kept p own s before messages (arrived ++ arrivedIn [st])
      (owns ++ [st].filterMap LinkStep.own?) stages' := by
  cases hconnected : l.connected with
  | false =>
    refine ⟨stages, h.gone hconnected ?_ _ _⟩
    cases st with
    | input reads => simp [Link.step, hconnected]
    | dispatch => by_cases hnone : l.inputReady = 0 <;> simp [Link.step, hnone, hconnected]
    | own o => simp [Link.step, hconnected]
  | true =>
    have hat := h.at_messages hconnected
    have hall := h.all hconnected
    cases st with
    | input reads =>
      have harrived : arrivedIn [LinkStep.input (O := O) reads] = (Op.inputReady reads).arrived := by
        simp [arrivedIn, arrivedBy, LinkStep.op?]
      rw [harrived] at hpre hroom ⊢
      rw [Link.step, if_pos hconnected]
      have hsame : owns ++ [LinkStep.input (O := O) reads].filterMap LinkStep.own? = owns := List.append_nil owns
      rw [hsame]
      exact ⟨stages, h.taken, ⟨h.reached.state, h.reached.effects, h.reached.connected⟩,
        fun _ => hat.input hpackets reads hpre hroom, h.own_prefix, fun _ => hall⟩
    | dispatch =>
      have harrived : arrivedIn [LinkStep.dispatch (O := O)] = [] := rfl
      have hsame : owns ++ [LinkStep.dispatch (O := O)].filterMap LinkStep.own? = owns := List.append_nil owns
      rw [harrived, List.append_nil] at hpre ⊢
      rw [hsame, Link.step]
      split_ifs with hnone
      · exact ⟨stages, h⟩
      · set t : Link S E := { l with inputReady := l.inputReady - 1 }
        obtain ⟨ms, htaken, hstate, heffects, hnext, hkept⟩ :=
          handleData_framed (l := t) hunderstands hpackets hat.framed hat.room h.taken hpre
        have hmessages : (stages ++ [Stage.batch ms]).flatMap Stage.messages =
            stages.flatMap Stage.messages ++ ms := by
          simp [Stage.messages]
        have howns : (stages ++ [Stage.batch ms]).filterMap Stage.own? = owns := by
          rw [List.filterMap_append, hall]
          exact List.append_nil owns
        exact ⟨stages ++ [.batch ms], hmessages ▸ htaken, h.reached.batch hconnected hstate heffects hnext,
          fun hstill => hmessages ▸ (hkept hstill).1, howns ▸ List.prefix_refl _, fun _ => howns⟩
    | own o =>
      have harrived : arrivedIn [LinkStep.own o] = [] := rfl
      rw [harrived, List.append_nil]
      rw [Link.step, if_pos hconnected]
      have hmessages : (stages ++ [Stage.own o]).flatMap Stage.messages = stages.flatMap Stage.messages := by
        simp [Stage.messages]
      have howns : (stages ++ [Stage.own o]).filterMap Stage.own? = owns ++ [LinkStep.own o].filterMap LinkStep.own? := by
        rw [List.filterMap_append, hall]
        rfl
      exact ⟨stages ++ [.own o], hmessages ▸ h.taken, h.reached.apart hconnected o,
        fun _ => hmessages ▸ ⟨hat.framed, hat.room, hat.announced⟩, howns ▸ List.prefix_refl _, fun _ => howns⟩

lemma Kept.run {owns : List O} (h : l.Kept p own s before messages arrived owns stages) {steps : List (LinkStep O)}
    (hpre : arrived ++ arrivedIn steps <+: wire (packets before messages)) (hfits : l.Fits p own steps) :
    ∃ stages', (l.run p own steps).Kept p own s before messages (arrived ++ arrivedIn steps)
      (owns ++ steps.filterMap LinkStep.own?) stages' := by
  induction steps generalizing l arrived owns stages with
  | nil => exact ⟨stages, by simpa [arrivedIn, arrivedBy, Link.run] using h⟩
  | cons st steps ih =>
    have hcut : arrivedIn (st :: steps) = arrivedIn [st] ++ arrivedIn steps := by
      simp [arrivedIn, arrivedBy]
    have howns : (st :: steps).filterMap LinkStep.own? = [st].filterMap LinkStep.own? ++ steps.filterMap LinkStep.own? :=
      List.filterMap_append (l := [st])
    rw [hcut, ← List.append_assoc] at hpre ⊢
    obtain ⟨stages', hstep⟩ := h.step hunderstands hpackets st ((List.prefix_append _ _).trans hpre) hfits.1
    rw [howns, ← List.append_assoc]
    exact ih hstep hpre hfits.2

end Step

/-- However the bytes are cut and whenever the queue gets to its events, the end goes through the messages in their
order, each of them once. When no event is left, it has gone through all that are complete. -/
theorem run_stages (hunderstands : ∀ m ∈ messages, p.Understands m)
    (hbefore : ∀ q ∈ before, q ≠ [] ∧ q.length ≤ maxMessageLength) (hstart : l.At before messages arrived [])
    (hl : l.connected = true ∧ l.effects = []) {steps : List (LinkStep O)}
    (hpre : arrived ++ arrivedIn steps <+: wire (packets before messages)) (hfits : l.Fits p own steps) :
    ∃ stages : List (Stage O), stages.flatMap Stage.messages <+: messages ∧
      stages.filterMap Stage.own? <+: steps.filterMap LinkStep.own? ∧ (l.run p own steps).Reached p own l.state stages ∧
      ((l.run p own steps).connected = true →
        stages.filterMap Stage.own? = steps.filterMap LinkStep.own? ∧
        ((l.run p own steps).inputReady = 0 → ∀ n ≤ messages.length,
          wire (packets before (messages.take n)) <+: arrived ++ arrivedIn steps →
            n ≤ (stages.flatMap Stage.messages).length)) := by
  have hpackets : ∀ q ∈ packets before messages, q ≠ [] ∧ q.length ≤ maxMessageLength := by
    intro q hq
    rcases List.mem_append.mp hq with hq | hq
    · exact hbefore q hq
    · obtain ⟨m, hm, rfl⟩ := List.mem_map.mp hq
      obtain ⟨hwell, -⟩ := hunderstands m hm
      exact ⟨hwell.bytes_ne_nil, hwell.length⟩
  have hempty : l.Kept p own l.state before messages arrived [] [] :=
    ⟨List.nil_prefix, ⟨rfl, hl.2, iff_of_true hl.1 rfl⟩, fun _ => hstart, List.nil_prefix, fun _ => rfl⟩
  obtain ⟨stages, hkept⟩ := hempty.run hunderstands hpackets hpre hfits
  refine ⟨stages, hkept.taken, hkept.own_prefix, hkept.reached, fun hconnected => ⟨hkept.all hconnected, fun hnone => ?_⟩⟩
  have hat := hkept.at_messages hconnected
  have hnot : ¬ CompletePacket (packets before messages) (arrived ++ arrivedIn steps)
      ⟨packets before (stages.flatMap Stage.messages), []⟩ := by
    rw [← hat.framed.isReady_iff hpre ((StreamBuffer.toList_length_le _).trans_lt hat.room),
      PacketStreamFilter.framer_isReady]
    exact fun hready => absurd (hat.announced hready) (by omega)
  exact fun n hn hwire => Nat.not_lt.mp fun hlt => hnot (completePacket_of_lt hkept.taken hlt hn hwire)

end Link

end Run

end InputLeap.Protocol
