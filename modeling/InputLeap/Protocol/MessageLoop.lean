import InputLeap.Protocol.PacketQueue
import InputLeap.Protocol.WireCodec

/-! Both ends of a connection take their messages in a loop. The code of a message is read first, the function
for it reads what is behind the code, and the loop goes on until there is no more to read. -/

namespace InputLeap.Protocol

open InputLeap.Lib ProtocolUtil

/-- What `readf` returns and stores, and the answer of `isReady` behind it. -/
structure Values where
  ok : Bool
  stored : List Stored
  ready : Bool

inductive Next
  | goOn
  /-- The end has disconnected. -/
  | leave
  /-- A variable is used that nothing was stored in. -/
  | undefined
  deriving DecidableEq

structure Reaction (S E : Type) where
  state : S
  effects : List E
  next : Next

inductive Handler (S E : Type)
  | reads (before : S → S × List E) (format : List Char) (act : S → Values → Reaction S E)
  | plain (act : S → Reaction S E)

/-- One end of a connection, with what is done when there is less than a code, when `XBadClient` is caught
and when nothing is left to read. -/
structure Endpoint (S E : Type) where
  parse : S → List UInt8 → Handler S E
  incomplete : S → S × List E
  badClient : S → S × List E
  finish : S → S × List E

variable {S E σ τ : Type} [MessageStream σ] [MessageStream τ]

namespace Reaction

def after (effects : List E) (a : Reaction S E) : Reaction S E := { a with effects := effects ++ a.effects }

def ofPair (p : S × List E) (next : Next) : Reaction S E := ⟨p.1, p.2, next⟩

@[simp] lemma after_next (effects : List E) (a : Reaction S E) : (a.after effects).next = a.next := rfl

@[simp] lemma after_state (effects : List E) (a : Reaction S E) : (a.after effects).state = a.state := rfl

@[simp] lemma after_effects (effects : List E) (a : Reaction S E) : (a.after effects).effects = effects ++ a.effects := rfl

end Reaction

namespace Endpoint

def handle (p : Endpoint S E) (s : S) (stream : σ) : Handler S E → Reaction S E × σ
  | .plain act => (act s, stream)
  | .reads before format act =>
    let (s, effects) := before s
    let o := (vreadf format).run .endOfStream stream
    match readfResult o.result with
    | .error .badClient => ((Reaction.ofPair (p.badClient s) .leave).after effects, o.source)
    | .error _ => (⟨s, effects, .undefined⟩, o.source)
    | .ok ok => ((act s ⟨ok, o.stored, MessageStream.isReady o.source⟩).after effects, o.source)

/-- The loop of `handle_data`, for at most so many messages. -/
def handleData (p : Endpoint S E) : ℕ → S → σ → Reaction S E × σ
  | 0, s, stream => (⟨s, [], .goOn⟩, stream)
  | fuel + 1, s, stream =>
    let (code, stream) := ByteSource.read stream 4
    if code = [] then (.ofPair (p.finish s) .goOn, stream)
    else if code.length ≠ 4 then (.ofPair (p.incomplete s) .leave, stream)
    else
      let (a, stream) := p.handle s stream (p.parse s code)
      if a.next = .goOn then
        let (b, stream) := p.handleData fuel a.state stream
        (b.after a.effects, stream)
      else (a, stream)

section Alike

variable {R : σ → τ → Prop} (hR : Indistinct R) (p : Endpoint S E)
include hR

lemma handle_alike (s : S) (h : Handler S E) {f : σ} {t : τ} (hft : R f t) :
    (p.handle s f h).1 = (p.handle s t h).1 ∧ R (p.handle s f h).2 (p.handle s t h).2 := by
  cases h with
  | plain act => exact ⟨rfl, hft⟩
  | reads before format act =>
    obtain ⟨hresult, hstored, hsource⟩ := Reader.run_alike hR.alike ReadError.endOfStream (vreadf format) hft
    have hready := hR.isReady _ _ hsource
    simp only [handle, hresult, hstored, hready]
    split
    · exact ⟨rfl, hsource⟩
    · exact ⟨rfl, hsource⟩
    · exact ⟨rfl, hsource⟩

lemma handleData_alike (fuel : ℕ) (s : S) {f : σ} {t : τ} (hft : R f t) :
    (p.handleData fuel s f).1 = (p.handleData fuel s t).1 ∧ R (p.handleData fuel s f).2 (p.handleData fuel s t).2 := by
  induction fuel generalizing s f t with
  | zero => exact ⟨rfl, hft⟩
  | succ fuel ih =>
    obtain ⟨hcode, hnext⟩ := hR.alike f t hft 4
    obtain ⟨haction, hstream⟩ := p.handle_alike hR s (p.parse s (ByteSource.read t 4).1) hnext
    rw [handleData, handleData]
    simp only [hcode, haction]
    split_ifs with hnil hlength hgo
    · exact ⟨rfl, hnext⟩
    · exact ⟨rfl, hnext⟩
    · obtain ⟨hmore, hlast⟩ := ih (p.handle s (ByteSource.read t 4).2 (p.parse s (ByteSource.read t 4).1)).1.state
        hstream
      exact ⟨by rw [hmore], hlast⟩
    · exact ⟨rfl, hstream⟩

end Alike

end Endpoint

structure Packet where
  code : List UInt8
  fields : List Field

namespace Packet

def payload (m : Packet) : List UInt8 := m.fields.flatMap Field.bytes

def bytes (m : Packet) : List UInt8 := m.code ++ m.payload

structure WellFormed (m : Packet) : Prop where
  code : m.code.length = 4
  fields : ∀ f ∈ m.fields, f.Valid
  length : m.bytes.length ≤ maxMessageLength

variable {m : Packet}

lemma WellFormed.bytes_ne_nil (h : m.WellFormed) : m.bytes ≠ [] := by
  intro hnil
  have hcode := h.code
  rw [(List.append_eq_nil_iff.mp hnil).1] at hcode
  contradiction

end Packet

namespace Pieces

def within (block : List UInt8) (rest : List (List UInt8)) : Pieces := if block = [] then ⟨rest⟩ else ⟨block :: rest⟩

lemma within_delivers (rest : List (List UInt8)) :
    Reader.Delivers fun block (s : Pieces) => s = within block rest where
  read {block s n} h hne h0 := by
    subst h
    refine ⟨min n block.length, ?_, Nat.min_le_left _ _, ?_, ?_⟩
    · have hpos := List.length_pos_iff.mpr hne
      omega
    · rw [within, if_neg hne, ← List.take_eq_take_min]
      rfl
    · rw [← List.drop_eq_drop_min, within, within, if_neg hne]
      change (if n < block.length then (⟨block.drop n :: rest⟩ : Pieces) else ⟨rest⟩) = _
      simp only [List.drop_eq_nil_iff]
      split_ifs with hlt hle hle
      · omega
      · rfl
      · rfl
      · omega

variable {m : Packet} (hm : m.WellFormed) (rest : List (List UInt8))
include hm

lemma read_code : ByteSource.read (⟨m.bytes :: rest⟩ : Pieces) 4 = (m.code, within m.payload rest) := by
  have hcode := hm.code
  change ((m.code ++ m.payload).take 4, if 4 < (m.code ++ m.payload).length then
    (⟨(m.code ++ m.payload).drop 4 :: rest⟩ : Pieces) else ⟨rest⟩) = _
  rw [List.take_left' hcode, List.drop_left' hcode, within, List.length_append, hcode]
  congr 1
  by_cases hnil : m.payload = []
  · rw [if_pos hnil, if_neg (by rw [hnil, List.length_nil]; omega)]
  · have hpos := List.length_pos_iff.mpr hnil
    rw [if_neg hnil, if_pos (by omega)]

lemma run_payload :
    (vreadf (m.fields.flatMap Field.format)).run ReadError.endOfStream (within m.payload rest) =
      ⟨.ok (), m.fields.flatMap Field.stored, m.payload, ⟨rest⟩⟩ := by
  have hwithin : within m.payload rest = within (m.fields.flatMap Field.bytes ++ []) rest := by
    rw [List.append_nil]
    rfl
  obtain ⟨t, ht, hrun⟩ := (vreadf_steps hm.fields).run (within_delivers rest) ReadError.endOfStream hwithin
  rw [hrun, ht]
  simp [Reader.run, within, Packet.payload]

end Pieces

namespace Handler

/-- The function reads all of the message, or the loop is left behind it. -/
def Takes (m : Packet) : Handler S E → Prop
  | reads _ format _ => format = m.fields.flatMap Field.format
  | plain act => m.fields = [] ∨ ∀ s, (act s).next ≠ .goOn

def take (s : S) (m : Packet) (ready : Bool) : Handler S E → Reaction S E
  | reads before _ act =>
    let (s, effects) := before s
    (act s ⟨true, m.fields.flatMap Field.stored, ready⟩).after effects
  | plain act => act s

end Handler

namespace Endpoint

variable (p : Endpoint S E) {m : Packet}

lemma handle_pieces (hm : m.WellFormed) (s : S) (rest : List (List UInt8)) (h : Handler S E) (htakes : h.Takes m) :
    (p.handle s (Pieces.within m.payload rest) h).1 = h.take s m (!rest.isEmpty) ∧
      ((h.take s m (!rest.isEmpty)).next = .goOn → (p.handle s (Pieces.within m.payload rest) h).2 = ⟨rest⟩) := by
  cases h with
  | plain act =>
    refine ⟨rfl, fun hgo => ?_⟩
    rcases htakes with hnil | hleave
    · simp [handle, Pieces.within, Packet.payload, hnil]
    · exact absurd hgo (hleave s)
  | reads before format act =>
    obtain rfl : format = _ := htakes
    simp only [handle, Pieces.run_payload hm rest]
    exact ⟨rfl, fun _ => rfl⟩

/-- A call of `handle_data` on messages that are complete. -/
def takeAll (p : Endpoint S E) : S → List Packet → Reaction S E
  | s, [] => .ofPair (p.finish s) .goOn
  | s, m :: ms =>
    let a := (p.parse s m.code).take s m (!ms.isEmpty)
    if a.next = .goOn then (p.takeAll a.state ms).after a.effects else a

def Understands (p : Endpoint S E) (m : Packet) : Prop := m.WellFormed ∧ ∀ s, (p.parse s m.code).Takes m

variable {p} {ms : List Packet}

lemma handleData_pieces (hms : ∀ m ∈ ms, p.Understands m) {fuel : ℕ} (hfuel : ms.length < fuel) (s : S) :
    (p.handleData fuel s (⟨ms.map Packet.bytes⟩ : Pieces)).1 = p.takeAll s ms ∧
      ((p.takeAll s ms).next = .goOn → (p.handleData fuel s (⟨ms.map Packet.bytes⟩ : Pieces)).2 = ⟨[]⟩) := by
  induction ms generalizing fuel s with
  | nil =>
    obtain ⟨fuel, rfl⟩ := Nat.exists_eq_succ_of_ne_zero (Nat.ne_of_gt hfuel)
    exact ⟨rfl, fun _ => rfl⟩
  | cons m ms ih =>
    obtain ⟨fuel, rfl⟩ := Nat.exists_eq_succ_of_ne_zero (Nat.ne_of_gt (Nat.zero_lt_of_lt hfuel))
    obtain ⟨hm, htakes⟩ := hms m List.mem_cons_self
    have hcode : m.code ≠ [] := fun hnil => by simpa [hnil] using hm.code
    obtain ⟨haction, hstream⟩ := p.handle_pieces hm s (ms.map Packet.bytes) (p.parse s m.code) (htakes s)
    have hready : (!(ms.map Packet.bytes).isEmpty) = !ms.isEmpty := by simp
    rw [hready] at haction hstream
    rw [List.map_cons, handleData, Pieces.read_code hm]
    simp only [if_neg hcode, hm.code, ne_eq, not_true_eq_false, if_false, haction, takeAll]
    split_ifs with hgo
    · rw [hstream hgo]
      obtain ⟨hmore, hlast⟩ := ih (fun m' hm' => hms m' (List.mem_cons_of_mem m hm')) (Nat.lt_of_succ_lt_succ hfuel)
        ((p.parse s m.code).take s m (!ms.isEmpty)).state
      exact ⟨by rw [hmore], hlast⟩
    · exact ⟨rfl, fun hgo' => absurd hgo' hgo⟩

end Endpoint

end InputLeap.Protocol
