import InputLeap.Protocol.Framer
import Mathlib.Data.List.TakeWhile

/-! Framing does not depend on where the stream is cut: the packets read are the payloads written,
as long as the buffer can count what it holds. -/

namespace InputLeap.Protocol

open InputLeap.Lib InputLeap.Lib.ByteQueue InputLeap.Io

structure Received where
  packets : List (List UInt8)
  current : List UInt8
  deriving DecidableEq

def Received.add (d : Received) (bytes : List UInt8) (ended : Bool) : Received :=
  if ended then ⟨d.packets ++ [d.current ++ bytes], []⟩ else ⟨d.packets, d.current ++ bytes⟩

def wire (payloads : List (List UInt8)) : List UInt8 := payloads.flatMap PacketStreamFilter.write

def arrivedBy (ops : List Op) : List UInt8 := ops.flatMap Op.arrived

def CompletePacket (payloads : List (List UInt8)) (arrived : List UInt8) (d : Received) : Prop :=
  ∃ p rest, payloads = d.packets ++ p :: rest ∧ wire (d.packets ++ [p]) <+: arrived

namespace PacketStreamFilter

section Collect

variable {β : Type} [ByteQueue β]

def endsPacket (f : PacketStreamFilter β) : Op → Bool
  | .read n => n != 0 && f.isReady && decide (f.size ≤ n)
  | _ => false

def collect (f : PacketStreamFilter β) (d : Received) : List Op → Received
  | [] => d
  | op :: ops => (f.step op).1.collect (d.add (f.step op).2.bytes (f.endsPacket op)) ops

lemma endsPacket_map {γ : Type} [ByteQueue γ] {q : β → γ} {held : β → ℕ} {m : ℕ} (hq : ByteQueue.Hom held m q)
    (f : PacketStreamFilter β) (op : Op) : (f.map q).endsPacket op = f.endsPacket op := by
  cases op with
  | read n => simp only [endsPacket, isReady_map hq]; rfl
  | _ => rfl

section Read

variable {f : PacketStreamFilter β} {n : ℕ}

lemma endsPacket_none (h : n = 0 ∨ f.isReady = false) : f.endsPacket (.read n) = false := by
  rcases h with hn | hr
  · simp [endsPacket, hn]
  · simp [endsPacket, hr]

lemma endsPacket_within (h : n < f.size) : f.endsPacket (.read n) = false := by
  simp [endsPacket, h]

lemma endsPacket_end (hr : f.isReady = true) (h0 : n ≠ 0) (hn : f.size ≤ n) : f.endsPacket (.read n) = true := by
  simp [endsPacket, h0, hr, hn]

end Read

end Collect

/-- At every operation the buffer can count the bytes of its chunks and what arrives. -/
def Fits (f : PacketStreamFilter StreamBuffer) : List Op → Prop
  | [] => True
  | op :: ops => f.buffer.stored + op.arrived.length < 2 ^ 32 ∧ (f.step op).1.Fits ops

end PacketStreamFilter

section Wire

@[simp] lemma wire_nil : wire [] = [] := rfl

@[simp] lemma wire_append (ps qs : List (List UInt8)) : wire (ps ++ qs) = wire ps ++ wire qs :=
  List.flatMap_append

@[simp] lemma wire_cons (p : List UInt8) (ps : List (List UInt8)) :
    wire (p :: ps) = BigEndian.encode 4 p.length ++ p ++ wire ps := by
  simp [wire, PacketStreamFilter.write]

lemma take_of_prefixed {l m : List UInt8} {n : ℕ} (h : l <+: m) (hn : n ≤ l.length) :
    l.take n = m.take n := by
  obtain ⟨t, rfl⟩ := h
  rw [List.take_append_of_le_length hn]

end Wire

namespace Framer

open PacketStreamFilter hiding read write

variable {payloads : List (List UInt8)} {arrived : List UInt8} {f : Framer} {d : Received}

/-- What has been read and what is held is what arrived, less the current packet's length. -/
inductive Aligned (payloads : List (List UInt8)) (arrived : List UInt8) (f : Framer) (d : Received) : Prop
  | between {rest : List (List UInt8)} (hsize : f.size = 0) (hcurrent : d.current = [])
      (hpayloads : payloads = d.packets ++ rest) (harrived : arrived = wire d.packets ++ f.buffer.bytes)
  | within {left : List UInt8} {rest : List (List UInt8)} (hsize : f.size = left.length) (hleft : left ≠ [])
      (hpayloads : payloads = d.packets ++ (d.current ++ left) :: rest)
      (harrived : arrived = wire d.packets ++
        (BigEndian.encode 4 (d.current ++ left).length ++ (d.current ++ f.buffer.bytes)))

def Framed (payloads : List (List UInt8)) (arrived : List UInt8) (f : Framer) (d : Received) : Prop :=
  Aligned payloads arrived f d ∧ (f.size = 0 → f.buffer.bytes.length < 4)

lemma new_framed : Framed payloads [] new ⟨[], []⟩ :=
  ⟨.between rfl rfl rfl rfl, fun _ => by decide⟩

lemma Aligned.write (h : Aligned payloads arrived f d) (data : List UInt8) :
    Aligned payloads (arrived ++ data) { f with buffer := ByteQueue.write f.buffer data } d := by
  cases h with
  | between hs hc hp ha => exact .between hs hc hp (by simp [ha])
  | within hs hl hp ha => exact .within hs hl hp (by simp [ha])

lemma Framed.isReady_iff (h : Framed payloads arrived f d) (hpre : arrived <+: wire payloads)
    (hlt : f.buffer.bytes.length < 2 ^ 32) :
    f.isReady = true ↔ CompletePacket payloads arrived d := by
  rw [isReady_iff_of_lt hlt]
  obtain ⟨ha, hwait⟩ := h
  cases ha with
  | between hs hc hp ha =>
    refine ⟨fun h => absurd hs h.1, ?_⟩
    rintro ⟨p, rest, -, hw⟩
    rw [ha, wire_append, List.prefix_append_right_inj] at hw
    have hlen := hw.length_le
    have := hwait hs
    simp at hlen
    omega
  | @within left rest hs hl hp ha =>
    have hheld : f.buffer.bytes <+: left ++ wire rest := by
      rw [ha, hp] at hpre
      simpa [List.prefix_append_right_inj] using hpre
    constructor
    · rintro ⟨-, hle⟩
      refine ⟨d.current ++ left, rest, hp, ?_⟩
      rw [ha, wire_append, List.prefix_append_right_inj, wire_cons, wire_nil, List.append_nil,
        List.prefix_append_right_inj, List.prefix_append_right_inj]
      exact List.prefix_of_prefix_length_le (List.prefix_append _ _) hheld (hs ▸ hle)
    · rintro ⟨p, rest', hp', hw⟩
      obtain ⟨rfl, -⟩ := List.cons_eq_cons.mp (List.append_cancel_left (hp.symm.trans hp'))
      rw [ha, wire_append, List.prefix_append_right_inj, wire_cons, wire_nil, List.append_nil,
        List.prefix_append_right_inj, List.prefix_append_right_inj] at hw
      exact ⟨by simpa [hs] using hl, hs ▸ hw.length_le⟩

section Payloads

variable (hpayloads : ∀ p ∈ payloads, p ≠ [] ∧ p.length ≤ maxMessageLength)
include hpayloads

lemma Aligned.readPacketSize (h : Aligned payloads arrived f d) (hpre : arrived <+: wire payloads)
    (hlt : f.buffer.bytes.length < 2 ^ 32) :
    Framed payloads arrived f.readPacketSize.1 d ∧ f.readPacketSize.2 = true := by
  have hmod := Nat.mod_eq_of_lt hlt
  by_cases hwait : f.size ≠ 0 ∨ f.buffer.bytes.length < 4
  · rw [readPacketSize_wait (by rwa [hmod])]
    exact ⟨⟨h, fun hs => hwait.resolve_left (not_not.mpr hs)⟩, rfl⟩
  · obtain ⟨hs, h4⟩ : f.size = 0 ∧ 4 ≤ f.buffer.bytes.length := by omega
    rw [readPacketSize_header hs (by rwa [hmod])]
    cases h with
    | within hs' hl => exact absurd (hs'.symm.trans hs) (by simpa using hl)
    | @between rest _ hc hp ha =>
      rw [ha, hp, wire_append, List.prefix_append_right_inj] at hpre
      cases rest with
      | nil =>
        rw [wire_nil, List.prefix_nil] at hpre
        simp [hpre] at h4
      | cons p rest =>
        obtain ⟨hne, hmax⟩ := hpayloads p (by simp [hp])
        have hpow : p.length < 256 ^ 4 := lt_of_le_of_lt hmax (by decide)
        have htake : f.buffer.bytes.take 4 = BigEndian.encode 4 p.length := by
          rw [take_of_prefixed hpre h4, wire_cons, List.append_assoc, List.take_left' (by simp)]
        rw [htake, BigEndian.decode_encode hpow]
        refine ⟨⟨@Aligned.within _ _ _ _ p rest rfl hne (by simp [hp, hc]) ?_, ?_⟩, by simpa using hmax⟩
        · simp only [hc, List.nil_append, Counted.pop_bytes hlt, ← htake, List.take_append_drop, ha]
        · intro h0
          exact absurd h0 (by simpa using hne)

lemma Framed.readLoop {reads : List (List UInt8)} (h : Framed payloads arrived f d)
    (hpre : arrived ++ (Op.inputReady reads).arrived <+: wire payloads)
    (hlt : f.buffer.bytes.length + (Op.inputReady reads).arrived.length < 2 ^ 32) :
    Framed payloads (arrived ++ (Op.inputReady reads).arrived) (f.readLoop reads).1 d := by
  induction reads generalizing f arrived with
  | nil => simpa [PacketStreamFilter.readLoop] using h
  | cons data reads ih =>
    by_cases hdata : data = []
    · simpa [PacketStreamFilter.readLoop, Op.arrived, hdata] using h
    · rw [Op.arrived_inputReady_cons hdata, ← List.append_assoc] at hpre ⊢
      rw [Op.arrived_inputReady_cons hdata, List.length_append] at hlt
      have hbuf : ({ f with buffer := ByteQueue.write f.buffer data } : Framer).buffer.bytes.length =
          f.buffer.bytes.length + data.length := by
        simp
      obtain ⟨hg, hok⟩ := (h.1.write data).readPacketSize hpayloads
        ((List.prefix_append _ _).trans hpre) (by omega)
      have hle := readPacketSize_length_le { f with buffer := ByteQueue.write f.buffer data }
      rw [PacketStreamFilter.readLoop, if_neg hdata]
      simp only [hok, if_true]
      exact ih hg hpre (by omega)

omit hpayloads in
lemma Framed.current (h : Framed payloads arrived f d) (hpre : arrived <+: wire payloads)
    (hlt : f.buffer.bytes.length < 2 ^ 32) (hr : f.isReady = true) :
    ∃ left rest, f.size = left.length ∧ payloads = d.packets ++ (d.current ++ left) :: rest ∧
      arrived = wire d.packets ++
        (BigEndian.encode 4 (d.current ++ left).length ++ (d.current ++ f.buffer.bytes)) ∧
      ∀ k ≤ f.size, f.buffer.bytes.take k = left.take k := by
  obtain ⟨hs, hle⟩ := (isReady_iff_of_lt hlt).mp hr
  cases h.1 with
  | between hs' => exact absurd hs' hs
  | @within left rest hsize _ hp ha =>
    have hheld : f.buffer.bytes <+: left ++ wire rest := by
      rw [ha, hp] at hpre
      simpa [List.prefix_append_right_inj] using hpre
    refine ⟨left, rest, hsize, hp, ha, ?_⟩
    intro k hk
    rw [take_of_prefixed hheld (hk.trans hle), List.take_append_of_le_length (hsize ▸ hk)]

omit hpayloads in
lemma Framed.read_within (h : Framed payloads arrived f d) (hpre : arrived <+: wire payloads)
    (hlt : f.buffer.bytes.length < 2 ^ 32) {n : ℕ} (hr : f.isReady = true) (hn : n < f.size) :
    Framed payloads arrived { f with size := f.size - n, buffer := ⟨f.buffer.bytes.drop n⟩ }
      (d.add (f.buffer.bytes.take n) false) := by
  obtain ⟨left, rest, hsize, hp, ha, htake⟩ := h.current hpre hlt hr
  rw [htake n hn.le]
  refine ⟨@Aligned.within _ _ _ _ (left.drop n) rest (by simp [hsize]) ?_ ?_ ?_, ?_⟩
  · simpa using hsize ▸ hn
  · simpa [Received.add] using hp
  · have hjoin : left.take n ++ f.buffer.bytes.drop n = f.buffer.bytes := by
      rw [← htake n hn.le, List.take_append_drop]
    simp only [Received.add, Bool.false_eq_true, if_false, List.append_assoc, List.take_append_drop, hjoin, ha]
  · intro hz
    simp only at hz
    omega

lemma Framed.read_end (h : Framed payloads arrived f d) (hpre : arrived <+: wire payloads)
    (hlt : f.buffer.bytes.length < 2 ^ 32) (hr : f.isReady = true) :
    Framed payloads arrived { f with size := 0, buffer := pop f.buffer f.size }.readPacketSize.1
      (d.add (f.buffer.bytes.take f.size) true) := by
  obtain ⟨left, rest, hsize, hp, ha, htake⟩ := h.current hpre hlt hr
  have hleft : f.buffer.bytes.take f.size = left := by
    rw [htake _ le_rfl, List.take_of_length_le hsize.ge]
  rw [hleft]
  refine (Aligned.readPacketSize hpayloads (@Aligned.between _ _ _ _ rest rfl ?_ ?_ ?_) hpre ?_).1
  · simp [Received.add]
  · simpa [Received.add] using hp
  · have hsplit : f.buffer.bytes = left ++ f.buffer.bytes.drop f.size := by
      conv_lhs => rw [← List.take_append_drop f.size f.buffer.bytes]
      rw [hleft]
    rw [Counted.pop_bytes hlt, ha]
    conv_lhs => rw [hsplit]
    simp [Received.add]
  · exact (pop_length_le f.buffer f.size).trans_lt hlt

lemma Framed.read (h : Framed payloads arrived f d) (hpre : arrived <+: wire payloads)
    (hlt : f.buffer.bytes.length < 2 ^ 32) (n : ℕ) :
    Framed payloads arrived (f.read n).1 (d.add (f.read n).2.bytes (f.endsPacket (.read n))) := by
  rcases read_cases f n with hnone | ⟨hr, h0, hn⟩ | ⟨hr, h0, hn⟩
  · rw [read_none hnone, endsPacket_none hnone]
    simpa [Received.add] using h
  · rw [Framer.read_within hr h0 hn, endsPacket_within hn]
    exact h.read_within hpre hlt hr hn
  · rw [Framer.read_end hr hn, endsPacket_end hr h0 hn]
    exact h.read_end hpayloads hpre hlt hr

lemma Framed.step {op : Op} (h : Framed payloads arrived f d) (hop : op ≠ .inputShutdown)
    (hpre : arrived ++ op.arrived <+: wire payloads)
    (hlt : f.buffer.bytes.length + op.arrived.length < 2 ^ 32) :
    Framed payloads (arrived ++ op.arrived) (f.step op).1
      (d.add (f.step op).2.bytes (f.endsPacket op)) := by
  cases op with
  | inputReady reads =>
    have hd : d.add (f.filterInputReady reads).2.bytes false = d := by
      simp [filterInputReady, Received.add]
    simp only [PacketStreamFilter.step, endsPacket, hd]
    exact h.readLoop hpayloads hpre hlt
  | inputShutdown => exact absurd rfl hop
  | read n =>
    simp only [Op.arrived, List.append_nil, List.length_nil, Nat.add_zero] at hpre hlt ⊢
    exact h.read hpayloads hpre hlt n

lemma Framed.packets_prefix (h : Framed payloads arrived f d) :
    ∃ rest, payloads = d.packets ++ rest ∧
      match rest with
      | [] => d.current = []
      | p :: _ => d.current <+: p ∧ d.current ≠ p := by
  cases h.1 with
  | @between rest hs hc hp =>
    refine ⟨rest, hp, ?_⟩
    cases rest with
    | nil => exact hc
    | cons p rest => exact ⟨by simp [hc], fun he => (hpayloads p (by simp [hp])).1 (he ▸ hc)⟩
  | within hs hl hp => exact ⟨_, hp, List.prefix_append _ _, by simpa using hl⟩

end Payloads

end Framer

namespace PacketStreamFilter

variable {payloads : List (List UInt8)} {arrived : List UInt8} {d : Received}

lemma arrivedBy_append (ops more : List Op) : arrivedBy (ops ++ more) = arrivedBy ops ++ arrivedBy more :=
  List.flatMap_append

lemma Fits.append {f : PacketStreamFilter StreamBuffer} {ops more : List Op} (h : f.Fits (ops ++ more)) :
    f.Fits ops ∧ (f.run ops).1.Fits more := by
  induction ops generalizing f with
  | nil => exact ⟨trivial, h⟩
  | cons op ops ih => exact ⟨⟨h.1, (ih h.2).1⟩, (ih h.2).2⟩

lemma framed_run (hpayloads : ∀ p ∈ payloads, p ≠ [] ∧ p.length ≤ maxMessageLength) {ops : List Op}
    (hops : ∀ op ∈ ops, op ≠ .inputShutdown) {f : PacketStreamFilter StreamBuffer}
    (h : Framer.Framed payloads arrived f.framer d) (hpre : arrived ++ arrivedBy ops <+: wire payloads)
    (hlt : f.buffer.stored < 2 ^ 32) (hfits : f.Fits ops) :
    Framer.Framed payloads (arrived ++ arrivedBy ops) (f.run ops).1.framer (f.collect d ops) ∧
      (f.run ops).1.buffer.stored < 2 ^ 32 := by
  induction ops generalizing f arrived d with
  | nil => simpa [arrivedBy, run, collect] using ⟨h, hlt⟩
  | cons op ops ih =>
    obtain ⟨hroom, hfits⟩ := hfits
    have hcut : arrivedBy (op :: ops) = op.arrived ++ arrivedBy ops := rfl
    rw [hcut, ← List.append_assoc] at hpre ⊢
    have hheld : f.framer.buffer.bytes.length ≤ f.buffer.stored := f.buffer.toList_length_le
    have hstep := framer_step hroom
    have hends : f.framer.endsPacket op = f.endsPacket op := endsPacket_map StreamBuffer.held_hom f op
    have hg := h.step hpayloads (hops op (by simp)) ((List.prefix_append _ _).trans hpre) (by omega)
    have hle := step_stored f op
    rw [hstep, hends] at hg
    exact ih (fun o ho => hops o (by simp [ho])) hg hpre (hle.trans_lt hroom) hfits

def receivedBy (ops : List Op) : Received :=
  (new : PacketStreamFilter StreamBuffer).collect ⟨[], []⟩ ops

section Run

variable (hpayloads : ∀ p ∈ payloads, p ≠ [] ∧ p.length ≤ maxMessageLength) {ops : List Op}
  (hops : ∀ op ∈ ops, op ≠ .inputShutdown) (hpre : arrivedBy ops <+: wire payloads)
  (hfits : new.Fits ops)
include hpayloads hops hpre hfits

lemma afterOps_framed :
    Framer.Framed payloads (arrivedBy ops) (afterOps ops).framer (receivedBy ops) ∧
      (afterOps ops).buffer.stored < 2 ^ 32 := by
  have hnew : Framer.Framed payloads [] (new : PacketStreamFilter StreamBuffer).framer ⟨[], []⟩ :=
    framer_new ▸ Framer.new_framed
  exact framed_run hpayloads hops hnew hpre (by decide) hfits

lemma afterOps_isReady_iff :
    (afterOps ops).isReady = true ↔ CompletePacket payloads (arrivedBy ops) (receivedBy ops) := by
  obtain ⟨hframed, hlt⟩ := afterOps_framed hpayloads hops hpre hfits
  rw [← framer_isReady]
  exact hframed.isReady_iff hpre ((StreamBuffer.toList_length_le _).trans_lt hlt)

/-- However the bytes of the payloads are cut into reads, and whatever the consumer's own reads are,
it gets the payloads in order; a complete packet can be read, and its arrival is announced. -/
theorem received_eq_payloads :
    (∃ rest, payloads = (receivedBy ops).packets ++ rest ∧
      match rest with
      | [] => (receivedBy ops).current = []
      | p :: _ => (receivedBy ops).current <+: p ∧ (receivedBy ops).current ≠ p) ∧
    ((afterOps ops).isReady = true ↔ CompletePacket payloads (arrivedBy ops) (receivedBy ops)) ∧
    (arrivedBy ops = wire payloads → (afterOps ops).isReady = false → receivedBy ops = ⟨payloads, []⟩) ∧
    ∀ before reads after, ops = before ++ .inputReady reads :: after →
      ¬ CompletePacket payloads (arrivedBy before) (receivedBy before) →
      CompletePacket payloads (arrivedBy (before ++ [.inputReady reads]))
        (receivedBy (before ++ [.inputReady reads])) →
      .inputReady ∈ ((afterOps before).filterInputReady reads).2.events := by
  have hready := afterOps_isReady_iff hpayloads hops hpre hfits
  obtain ⟨hframed, -⟩ := afterOps_framed hpayloads hops hpre hfits
  obtain ⟨rest, hrest, hcurrent⟩ := hframed.packets_prefix hpayloads
  refine ⟨⟨rest, hrest, hcurrent⟩, hready, ?_, ?_⟩
  · intro hall hnot
    cases rest with
    | nil =>
      have hp : (receivedBy ops).packets = payloads := by simpa using hrest.symm
      rw [← hp, ← show (receivedBy ops).current = [] from hcurrent]
    | cons p rest =>
      have hcomplete : CompletePacket payloads (arrivedBy ops) (receivedBy ops) := by
        refine ⟨p, rest, hrest, ?_⟩
        rw [hall]
        conv_rhs => rw [hrest]
        simp [List.prefix_append_right_inj]
      exact absurd (hready.mpr hcomplete) (by simp [hnot])
  · rintro before reads after rfl hbefore hafter
    have hsplit : before ++ .inputReady reads :: after = (before ++ [.inputReady reads]) ++ after := by simp
    have hops' : ∀ op ∈ before ++ [.inputReady reads], op ≠ .inputShutdown :=
      fun op hop => hops op (by rw [hsplit]; exact List.mem_append_left _ hop)
    have hpre' : arrivedBy (before ++ [.inputReady reads]) <+: wire payloads := by
      rw [hsplit, arrivedBy_append] at hpre
      exact (List.prefix_append _ _).trans hpre
    have hfits' : new.Fits (before ++ [.inputReady reads]) := (hsplit ▸ hfits : new.Fits _).append.1
    have hon := (afterOps_isReady_iff hpayloads hops' hpre' hfits').mpr hafter
    have hoff : (afterOps before).isReady = false := by
      rw [← Bool.not_eq_true, afterOps_isReady_iff hpayloads
        (fun op hop => hops' op (List.mem_append_left _ hop))
        ((arrivedBy_append before _ ▸ List.prefix_append _ _ : arrivedBy before <+: _).trans hpre')
        hfits'.append.1]
      exact hbefore
    rw [afterOps, run_append] at hon
    replace hon : ((afterOps before).readLoop reads).1.isReady = true := hon
    simp [filterInputReady, readMore, hoff, hon]

end Run

theorem received_eq_payloads_cut :
    receivedBy [.inputReady [[0, 0], [0, 1, 7, 0]], .read 5, .inputReady [[0, 0, 2, 8, 9]], .read 1, .read 4] =
      ⟨[[7], [8, 9]], []⟩ := by
  have hpayloads : ∀ p ∈ ([[7], [8, 9]] : List (List UInt8)), p ≠ [] ∧ p.length ≤ maxMessageLength := by decide
  have hfits : new.Fits
      [.inputReady [[0, 0], [0, 1, 7, 0]], .read 5, .inputReady [[0, 0, 2, 8, 9]], .read 1, .read 4] :=
    ⟨by decide, by decide, by decide, by decide, by decide, trivial⟩
  exact (received_eq_payloads hpayloads (by decide) (by decide) hfits).2.2.1 (by decide) (by decide)

section Overflow

lemma receivedBy_inputReady (reads : List (List UInt8)) : receivedBy [.inputReady reads] = ⟨[], []⟩ := by
  simp [receivedBy, collect, step, filterInputReady, endsPacket, Received.add]

lemma arrived_of_ne_nil {reads : List (List UInt8)} (h : ∀ r ∈ reads, r ≠ []) :
    (Op.inputReady reads).arrived = reads.flatten := by
  rw [Op.arrived, List.takeWhile_eq_self_iff.mpr (by simpa using h)]

lemma new_readLoop {first : List UInt8} {rest : List (List UInt8)} {size : ℕ} (h4 : 4 ≤ first.length)
    (hlt : first.length < 2 ^ 32) (hd : BigEndian.decode (first.take 4) = size) (h0 : size ≠ 0)
    (hmax : size ≤ maxMessageLength) :
    (new : Framer).readLoop (first :: rest) =
      ({ size := size
         buffer := ⟨first.drop 4 ++ (Op.inputReady rest).arrived⟩
         inputShutdown := false }, []) := by
  have hne : first ≠ [] := by
    rintro rfl
    simp at h4
  have hbuf : ByteQueue.write (new : Framer).buffer first = ⟨first⟩ := rfl
  have hhead := Framer.readPacketSize_header (f := ⟨0, ⟨first⟩, false⟩) rfl
    (h4.trans_eq (Nat.mod_eq_of_lt hlt).symm)
  have hpop : (pop (⟨first⟩ : Counted (2 ^ 32)) 4) = ⟨first.drop 4⟩ := Counted.ext (Counted.pop_bytes hlt 4)
  have hnew : { (new : Framer) with buffer := ByteQueue.write (new : Framer).buffer first } =
      ⟨0, ⟨first⟩, false⟩ := rfl
  rw [readLoop, if_neg hne, hnew, hhead]
  simp only [hd, decide_eq_true hmax, if_true, hpop]
  exact Framer.readLoop_within h0 rest

/-- Once the first read has given the length of a packet, nothing is taken from the buffer. -/
lemma framer_readLoop {first : List UInt8} {rest : List (List UInt8)} {size : ℕ} (h4 : 4 ≤ first.length)
    (hlt : first.length < 2 ^ 32) (hd : BigEndian.decode (first.take 4) = size) (h0 : size ≠ 0) :
    (new : Framer).readLoop (first :: rest) =
      (((new : PacketStreamFilter StreamBuffer).readLoop (first :: rest)).1.framer,
        ((new : PacketStreamFilter StreamBuffer).readLoop (first :: rest)).2) := by
  have hheld : (new : PacketStreamFilter StreamBuffer).buffer.stored + first.length < 2 ^ 32 :=
    (Nat.zero_add _).trans_lt hlt
  have hwrite : (ByteQueue.write (new : PacketStreamFilter StreamBuffer).buffer first).stored < 2 ^ 32 := by
    rwa [StreamBuffer.held_hom.held_write]
  have hmap := readPacketSize_map StreamBuffer.held_hom (f := ⟨0, ByteQueue.write new.buffer first, false⟩) hwrite
  have hbuf : StreamBuffer.held (ByteQueue.write (new : PacketStreamFilter StreamBuffer).buffer first) = ⟨first⟩ :=
    StreamBuffer.held_hom.write _ first
  have hhead := Framer.readPacketSize_header (f := ⟨0, ⟨first⟩, false⟩) rfl
    (h4.trans_eq (Nat.mod_eq_of_lt hlt).symm)
  rw [← framer_new]
  refine readLoop_map_first StreamBuffer.held_hom hheld ?_ rest
  rw [map, hbuf, hhead] at hmap
  have hsize := congrArg (fun g => g.1.size) hmap
  exact (hsize.symm.trans hd).trans_ne h0

lemma new_readLoop_isReady {first : List UInt8} {rest : List (List UInt8)} {size : ℕ}
    (h4 : 4 ≤ first.length) (hlt : first.length < 2 ^ 32) (hd : BigEndian.decode (first.take 4) = size)
    (h0 : size ≠ 0) (hmax : size ≤ maxMessageLength) :
    ((new : PacketStreamFilter StreamBuffer).readLoop (first :: rest)).1.isReady = true ↔
      size ≤ (first.length - 4 + (Op.inputReady rest).arrived.length) % 2 ^ 32 := by
  have hframer := congrArg Prod.fst (@framer_readLoop first rest size h4 hlt hd h0)
  rw [new_readLoop h4 hlt hd h0 hmax] at hframer
  dsimp only at hframer
  rw [← framer_isReady, ← hframer, Framer.isReady_iff, List.length_append, List.length_drop]
  exact and_iff_right h0

def longPayload : List UInt8 := List.replicate 4194300 0

def longReads : List (List UInt8) :=
  (BigEndian.encode 4 4194300 ++ List.replicate 4092 0) :: List.replicate 1023 (List.replicate 4096 0)

lemma longReads_flatten : longReads.flatten = write longPayload := by
  have hlen : longPayload.length = 4194300 := List.length_replicate
  rw [write, hlen, longReads, List.flatten_cons, List.flatten_replicate_replicate, List.append_assoc,
    List.replicate_append_replicate, longPayload]

lemma longReads_mem : ∀ r ∈ longReads, r ≠ [] ∧ r.length ≤ 4096 := by
  intro r hr
  rcases List.mem_cons.mp hr with rfl | hr
  · refine ⟨List.append_ne_nil_of_left_ne_nil (by decide) _, ?_⟩
    rw [List.length_append, BigEndian.encode_length, List.length_replicate]
  · rw [List.eq_of_mem_replicate hr]
    exact ⟨List.ne_nil_of_length_pos (by rw [List.length_replicate]; decide), List.length_replicate.le⟩

def floodPayloads : List (List UInt8) := List.replicate 1024 longPayload ++ [[1, 2, 3, 4]]

def floodReads : List (List UInt8) := (List.replicate 1024 longReads).flatten ++ [write [1, 2, 3, 4]]

lemma floodReads_mem : ∀ r ∈ floodReads, r ≠ [] ∧ r.length ≤ 4096 := by
  intro r hr
  rcases List.mem_append.mp hr with hr | hr
  · obtain ⟨l, hl, hr⟩ := List.mem_flatten.mp hr
    rw [List.eq_of_mem_replicate hl] at hr
    exact longReads_mem r hr
  · rw [List.mem_singleton.mp hr]
    decide

lemma floodReads_flatten : floodReads.flatten = wire floodPayloads := by
  rw [floodReads, floodPayloads, wire_append, List.flatten_append, wire, List.flatMap_def,
    List.map_replicate, ← longReads_flatten, List.flatten_flatten, List.map_replicate]
  rfl

lemma wire_floodPayloads_length : (wire floodPayloads).length = 2 ^ 32 + 8 := by
  have hlong : (write longPayload).length = 4194304 := by
    rw [write, List.length_append, BigEndian.encode_length, longPayload, List.length_replicate]
  rw [floodPayloads, wire_append, List.length_append, wire, List.length_flatMap, List.map_replicate, hlong,
    List.sum_replicate_nat]
  rfl

lemma floodPayloads_mem : ∀ p ∈ floodPayloads, p ≠ [] ∧ p.length ≤ maxMessageLength := by
  intro p hp
  rcases List.mem_append.mp hp with hp | hp
  · have hlen : longPayload.length = 4194300 := List.length_replicate
    rw [List.eq_of_mem_replicate hp]
    exact ⟨List.ne_nil_of_length_pos (by rw [hlen]; decide), by rw [hlen]; decide⟩
  · rw [List.mem_singleton.mp hp]
    decide

lemma flood_isReady : ((new : PacketStreamFilter StreamBuffer).readLoop floodReads).1.isReady = false := by
  have hcons : floodReads = (BigEndian.encode 4 4194300 ++ List.replicate 4092 0) ::
      (List.replicate 1023 (List.replicate 4096 0) ++ ((List.replicate 1023 longReads).flatten ++
        [write [1, 2, 3, 4]])) := by
    have hrep : List.replicate 1024 longReads = longReads :: List.replicate 1023 longReads :=
      List.replicate_succ (n := 1023)
    rw [floodReads, hrep, List.flatten_cons, List.append_assoc, longReads, List.cons_append]
  have hlen : (Op.inputReady floodReads).arrived.length = 2 ^ 32 + 8 := by
    rw [arrived_of_ne_nil fun r hr => (floodReads_mem r hr).1, floodReads_flatten, wire_floodPayloads_length]
  have hfirst : (BigEndian.encode 4 4194300 ++ List.replicate 4092 (0 : UInt8)).length = 4096 := by
    rw [List.length_append, BigEndian.encode_length, List.length_replicate]
  have hsize : BigEndian.decode ((BigEndian.encode 4 4194300 ++ List.replicate 4092 (0 : UInt8)).take 4) =
      4194300 := by
    rw [List.take_left' (BigEndian.encode_length 4 _), BigEndian.decode_encode (by decide)]
  rw [hcons] at hlen ⊢
  rw [Op.arrived_inputReady_cons (List.ne_nil_of_length_pos (by omega)), List.length_append] at hlen
  rw [← Bool.not_eq_true, new_readLoop_isReady (by omega) (by omega) hsize (by decide) (by decide)]
  omega

lemma readLoop_not_announced {β : Type} [ByteQueue β] (f : PacketStreamFilter β) (reads : List (List UInt8)) :
    .inputReady ∉ (f.readLoop reads).2 := by
  induction reads generalizing f with
  | nil => simp [readLoop]
  | cons data reads ih =>
    rw [readLoop]
    split_ifs
    · simp
    · dsimp only
      split_ifs
      · exact ih _
      · simp

lemma not_announced {reads : List (List UInt8)}
    (hquiet : ((new : PacketStreamFilter StreamBuffer).readLoop reads).1.isReady = false) :
    .inputReady ∉ ((afterOps []).filterInputReady reads).2.events := by
  have hsame : (new : PacketStreamFilter StreamBuffer).isReady = false := rfl
  simpa [afterOps, run, filterInputReady, readMore, hquiet, hsame] using readLoop_not_announced new reads

lemma completePacket_of_arrived {payloads rest reads : List (List UInt8)} {p : List UInt8}
    (hcons : payloads = p :: rest) (harrived : arrivedBy [.inputReady reads] = wire payloads) :
    CompletePacket payloads (arrivedBy [.inputReady reads]) (receivedBy [.inputReady reads]) := by
  rw [receivedBy_inputReady, harrived]
  refine ⟨p, rest, hcons, ?_⟩
  rw [hcons, List.nil_append, wire_cons, wire_cons, wire_nil, List.append_nil]
  exact List.prefix_append _ _

lemma not_completePacket_nil (payloads : List (List UInt8)) :
    ¬ CompletePacket payloads (arrivedBy []) (receivedBy []) := by
  rintro ⟨p, rest, -, hw⟩
  have hlen := hw.length_le
  simp [receivedBy, collect, arrivedBy] at hlen

/-- More bytes than the buffer can count, and the consumer is not told of the packet it holds. -/
theorem received_eq_payloads_overflow :
    ¬ ∀ (payloads : List (List UInt8)) (reads : List (List UInt8)),
      (∀ p ∈ payloads, p ≠ [] ∧ p.length ≤ maxMessageLength) →
      (∀ r ∈ reads, r ≠ [] ∧ r.length ≤ 4096) →
      arrivedBy [.inputReady reads] = wire payloads →
      ¬ CompletePacket payloads (arrivedBy []) (receivedBy []) →
      CompletePacket payloads (arrivedBy [.inputReady reads]) (receivedBy [.inputReady reads]) →
      .inputReady ∈ ((afterOps []).filterInputReady reads).2.events := by
  intro h
  have harrived : arrivedBy [.inputReady floodReads] = wire floodPayloads := by
    rw [arrivedBy, List.flatMap_singleton, arrived_of_ne_nil fun r hr => (floodReads_mem r hr).1,
      floodReads_flatten]
  have hcons : floodPayloads = longPayload :: (List.replicate 1023 longPayload ++ [[1, 2, 3, 4]]) := by
    rw [floodPayloads, show List.replicate 1024 longPayload = longPayload :: List.replicate 1023 longPayload from
      List.replicate_succ (n := 1023), List.cons_append]
  exact not_announced flood_isReady (h floodPayloads floodReads floodPayloads_mem floodReads_mem harrived
    (not_completePacket_nil _) (completePacket_of_arrived hcons harrived))

end Overflow

end PacketStreamFilter

end InputLeap.Protocol
