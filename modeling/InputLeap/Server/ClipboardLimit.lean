import InputLeap.Protocol.ClipboardTransfer
import InputLeap.Server.Effects

/-! The limit on the size of a clipboard, which is tested where a client sends one, where the server receives it, where
it takes it over and where it hands it to another screen. -/

namespace InputLeap

open InputLeap.Lib InputLeap.Protocol

namespace Client

structure SentClipboard where
  time : ℕ
  sent : Bool
  data : List UInt8

structure ClipboardSender where
  maximumClipboardSize : ℕ
  clipboards : ClipboardID → SentClipboard

namespace ClipboardSender

def modify (c : ClipboardSender) (id : ClipboardID) (f : SentClipboard → SentClipboard) : ClipboardSender :=
  { c with clipboards := Function.update c.clipboards id (f (c.clipboards id)) }

/-- `content` and `time` are what the screen gives of the clipboard. The result is what is handed to the server. -/
def sendClipboard (c : ClipboardSender) (id : ClipboardID) (content : Clipboard) (time : ℕ) :
    ClipboardSender × Option Clipboard :=
  if (c.clipboards id).time = 0 ∨ time ≠ (c.clipboards id).time then
    let c := c.modify id fun info => { info with time := time }
    let data := content.marshall
    if c.maximumClipboardSize ≤ data.length then (c, none)
    else if (c.clipboards id).sent = false ∨ data ≠ (c.clipboards id).data then
      (c.modify id fun info => { info with sent := true, data := data }, some content)
    else (c, none)
  else (c, none)

structure Due (c : ClipboardSender) (id : ClipboardID) (content : Clipboard) (time : ℕ) : Prop where
  time : (c.clipboards id).time = 0 ∨ time ≠ (c.clipboards id).time
  data : (c.clipboards id).sent = false ∨ content.marshall ≠ (c.clipboards id).data

lemma sendClipboard_eq_some_iff {c : ClipboardSender} {id : ClipboardID} {content : Clipboard} {time : ℕ}
    (h : c.Due id content time) :
    (c.sendClipboard id content time).2 = some content ↔ content.marshall.length < c.maximumClipboardSize := by
  have hinfo : (((c.modify id fun info => { info with time := time }).clipboards id).sent = false ∨
      content.marshall ≠ ((c.modify id fun info => { info with time := time }).clipboards id).data) := by
    simpa [modify] using h.data
  have hmax : (c.modify id fun info => { info with time := time }).maximumClipboardSize = c.maximumClipboardSize := rfl
  rw [sendClipboard, if_pos h.time]
  dsimp only
  rw [hmax]
  split_ifs with hlarge
  · exact iff_of_false nofun (Nat.not_lt.mpr hlarge)
  · exact iff_of_true rfl (Nat.not_le.mp hlarge)

end ClipboardSender

end Client

namespace Protocol.ClipboardChunk

open StreamChunker

variable {σ : Type} [ByteSource σ]

def Received (data : List UInt8) (outs : List (AssembleOutcome σ)) : Prop :=
  ∃ o ∈ outs, o.result = .ok .finish ∧ o.assembly.dataCached = data

omit [ByteSource σ] in
lemma Finishes.received {id : UInt8} {sequence : UInt32} {results : List DataReceived} {data : List UInt8}
    {outs : List (AssembleOutcome σ)} (h : Finishes id sequence results data outs) : Received data outs := by
  cases hlast : outs.getLast? with
  | none =>
    have hresults := h.results
    rw [List.getLast?_eq_none_iff.mp hlast] at hresults
    simp at hresults
  | some o =>
    have hresult : (outs.map (·.result)).getLast? = some (.ok .finish) := by rw [h.results, List.getLast?_concat]
    rw [List.getLast?_map, hlast, Option.map_some, Option.some.injEq] at hresult
    exact ⟨o, List.mem_of_getLast? hlast, hresult, by rw [h.last o hlast]⟩

lemma received_iff {S : List UInt8 → σ → Prop} (hS : Reader.Delivers S) {data : List UInt8}
    (hdata : data.length < 2 ^ 64) {id : UInt8} (hid : id.toNat < kClipboardEnd) {sequence : UInt32} {maxSize : ℕ}
    {calls : List (AssembleCall σ)}
    (hcalls : List.Forall₂ (Carries S maxSize) (sendClipboard data data.length id sequence) calls) (a : Assembly) :
    Received data (outcomes a calls) ↔ data.length ≤ maxSize := by
  constructor
  · rintro ⟨o, ho, hresult, -⟩
    by_contra hmax
    have hdropped := (outcomes_oversize hS hdata hid hcalls (not_le.mp hmax) a).1 o ho
    rw [hresult] at hdropped
    nomatch hdropped.1
  · exact fun hmax => (outcomes_fitting hS hdata hid hcalls hmax a).received

end Protocol.ClipboardChunk

namespace Server

variable {env : Env} {s : Server} {sender dst : ClientId} {id : ClipboardID} {content : Clipboard}

lemma onClipboardChanged_takes_iff {seqNum : ℕ} (hseq : (s.clipboards id).seqNum ≤ seqNum)
    (hcontent : s.clipboardOf env sender id = some content) (hnew : content.marshall ≠ (s.clipboards id).data) :
    (((s.onClipboardChanged env sender id seqNum).clipboards id).clipboard = content ∧
        ((s.onClipboardChanged env sender id seqNum).clipboards id).data = content.marshall) ↔
      content.marshall.length ≤ s.settings.maximumClipboardSize := by
  have hsent : (s.checkOwner sender id).clipboardOf env sender id = some content := hcontent
  rw [onClipboardChanged, if_neg (Nat.not_lt.mpr hseq)]
  dsimp only
  rw [hsent]
  simp only [updateClipboard]
  split_ifs with hlarge hold
  · refine iff_of_false (fun h => hnew ?_) (Nat.not_le.mpr hlarge)
    simpa [modifyClipboard, checkOwner] using h.2.symm
  · exact absurd hold hnew
  · refine iff_of_true ?_ (Nat.not_lt.mp hlarge)
    rw [modifyProxy, forClients_clipboards]
    simp [modifyClipboard]

/-- Hands one clipboard to the active screen, if it is not too large. -/
def sendOne (s : Server) (id : ClipboardID) : Server :=
  if s.settings.maximumClipboardSize < (s.clipboards id).clipboard.marshall.length then s
  else s.modifyProxy s.active fun p => p.setClipboard id (s.clipboards id).clipboard

def Given (s : Server) (id : ClipboardID) : Prop :=
  (s.proxies s.active).dirty id = false ∧ (s.proxies s.active).lastSet id = some (s.clipboards id).clipboard

lemma sendOne_same (s : Server) (id : ClipboardID) : (s.sendOne id).active = s.active ∧
    (s.sendOne id).settings = s.settings ∧ (s.sendOne id).clipboards = s.clipboards := by
  rw [sendOne]
  split_ifs
  · exact ⟨rfl, rfl, rfl⟩
  · exact ⟨rfl, rfl, rfl⟩

lemma sendOne_other {id' : ClipboardID} (h : id' ≠ id) (s : Server) :
    ((s.sendOne id).proxies (s.sendOne id).active).dirty id' = (s.proxies s.active).dirty id' ∧
      ((s.sendOne id).proxies (s.sendOne id).active).lastSet id' = (s.proxies s.active).lastSet id' := by
  rw [(s.sendOne_same id).1, sendOne]
  split_ifs
  · exact ⟨rfl, rfl⟩
  · simp only [modifyProxy, Function.update_self, Proxy.setClipboard]
    split_ifs
    · simp [Function.update_of_ne h]
    · exact ⟨rfl, rfl⟩

lemma given_sendOne_iff (h : (s.proxies s.active).dirty id = true) :
    (s.sendOne id).Given id ↔ (s.clipboards id).clipboard.marshall.length ≤ s.settings.maximumClipboardSize := by
  rw [Given, (s.sendOne_same id).1, (s.sendOne_same id).2.2, sendOne]
  split_ifs with hlarge
  · simp [h, hlarge]
  · simp [modifyProxy, Proxy.setClipboard, h, not_lt.mp hlarge]

lemma given_sendOne_other {id' : ClipboardID} (h : id' ≠ id) (s : Server) : (s.sendOne id).Given id' ↔ s.Given id' := by
  obtain ⟨hdirty, hlast⟩ := sendOne_other h s
  rw [Given, Given, hdirty, hlast, (s.sendOne_same id).2.2]

lemma given_sendClipboards_iff (h : (s.proxies s.active).dirty id = true) : s.sendClipboards.Given id ↔
    (s.clipboards id).clipboard.marshall.length ≤ s.settings.maximumClipboardSize := by
  have hsend : s.sendClipboards = (s.sendOne .clipboard).sendOne .selection := rfl
  rw [hsend]
  cases id with
  | clipboard =>
    rw [given_sendOne_other (by decide)]
    exact given_sendOne_iff h
  | selection =>
    have hne : ClipboardID.selection ≠ .clipboard := by decide
    have hother := sendOne_other hne s
    obtain ⟨-, hsettings, hclipboards⟩ := s.sendOne_same .clipboard
    rw [given_sendOne_iff (hother.1.trans h), hsettings, hclipboards]

end Server

/-- Each of the tests lets a clipboard pass that is no larger than the limit, and no other one. -/
structure LimitsAgree (m : ℕ) (content : Clipboard) : Prop where
  sent : ∀ (c : Client.ClipboardSender) (id : ClipboardID) (time : ℕ), c.maximumClipboardSize = m →
    c.Due id content time → ((c.sendClipboard id content time).2 = some content ↔ content.marshall.length ≤ m)
  assembled : ∀ (σ : Type) [ByteSource σ] (S : List UInt8 → σ → Prop), Reader.Delivers S →
    content.marshall.length < 2 ^ 64 → ∀ (id : UInt8) (sequence : UInt32) (calls : List (AssembleCall σ))
      (a : Assembly), id.toNat < kClipboardEnd →
      List.Forall₂ (ClipboardChunk.Carries S m)
        (StreamChunker.sendClipboard content.marshall content.marshall.length id sequence) calls →
      (ClipboardChunk.Received content.marshall (ClipboardChunk.outcomes a calls) ↔ content.marshall.length ≤ m)
  stored : ∀ (env : Env) (s : Server) (sender : ClientId) (id : ClipboardID) (seqNum : ℕ),
    s.settings.maximumClipboardSize = m → (s.clipboards id).seqNum ≤ seqNum →
    s.clipboardOf env sender id = some content → content.marshall ≠ (s.clipboards id).data →
      (((s.onClipboardChanged env sender id seqNum).clipboards id).clipboard = content ∧
        ((s.onClipboardChanged env sender id seqNum).clipboards id).data = content.marshall ↔
          content.marshall.length ≤ m)
  forwarded : ∀ (s : Server) (dst : ClientId) (id : ClipboardID), s.settings.maximumClipboardSize = m →
    s.settings.enableClipboard = true → (s.clipboards id).clipboard = content → (s.proxies dst).dirty id = true →
      ((s.enterScreen dst).Given id ↔ content.marshall.length ≤ m)

def Client.ClipboardSender.fresh (m : ℕ) : Client.ClipboardSender := ⟨m, fun _ => ⟨0, false, []⟩⟩

lemma Client.ClipboardSender.fresh_due (m : ℕ) (id : ClipboardID) (content : Clipboard) :
    (fresh m).Due id content 0 := ⟨.inl rfl, .inl rfl⟩

/-- A client keeps a clipboard whose size is the limit. -/
lemma LimitsAgree.length_ne {m : ℕ} {content : Clipboard} (h : LimitsAgree m content) : content.marshall.length ≠ m := by
  intro heq
  have hdue := Client.ClipboardSender.fresh_due m .clipboard content
  have hsent := h.sent (.fresh m) .clipboard 0 rfl hdue
  rw [Client.ClipboardSender.sendClipboard_eq_some_iff hdue] at hsent
  exact absurd (hsent.mpr heq.le) (by simp [Client.ClipboardSender.fresh, heq])

/-- The limit is the same on both sides but for the clipboards whose size is the limit. -/
theorem limits_agree_iff (m : ℕ) (content : Clipboard) : LimitsAgree m content ↔ content.marshall.length ≠ m := by
  refine ⟨LimitsAgree.length_ne, fun hne => ?_⟩
  constructor
  · rintro c id time rfl hdue
    rw [Client.ClipboardSender.sendClipboard_eq_some_iff hdue]
    exact ⟨Nat.le_of_lt, fun hle => Nat.lt_of_le_of_ne hle hne⟩
  · intro σ _ S hS hdata id sequence calls a hid hcalls
    exact ClipboardChunk.received_iff hS hdata hid hcalls a
  · rintro env s sender id seqNum rfl hseq hcontent hnew
    exact Server.onClipboardChanged_takes_iff hseq hcontent hnew
  · rintro s dst id rfl henable rfl hdirty
    have henter : s.enterScreen dst =
        ({ s with active := dst, seqNum := (s.seqNum + 1) % 2 ^ 32 } : Server).sendClipboards := if_pos henable
    rw [henter]
    exact Server.given_sendClipboards_iff hdirty

theorem limits_disagree_on_limit : ¬ (∀ (m : ℕ) (content : Clipboard), 0 < m → LimitsAgree m content) := by
  intro hall
  exact (hall 4 .clear (by decide)).length_ne rfl

end InputLeap
