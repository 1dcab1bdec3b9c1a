import InputLeap.Connection.Conversation

/-! A client whose screen has changed ignores the motion of the mouse until the next acknowledgment. If none was due
before, that is the motion which the server sent before it knew of the change. -/

namespace InputLeap

open Lib Protocol Client

namespace Conversation

variable {uninit : UInt64}

section Tags

def Tagged : ℕ → List InFlight → ℕ → Prop
  | a, [], b => a = b
  | a, m :: ms, b => m.known = a + (if m.message = .infoAck then 1 else 0) ∧ Tagged m.known ms b

def acks (ms : List InFlight) : ℕ := (ms.map InFlight.message).count .infoAck

variable {a b : ℕ} {ms more : List InFlight}

lemma acks_cons (m : InFlight) (ms : List InFlight) : acks (m :: ms) = (if m.message = .infoAck then 1 else 0) + acks ms := by
  rw [acks, List.map_cons, List.count_cons, acks]
  simp [Nat.add_comm]

lemma Tagged.eq (h : Tagged a ms b) : b = a + acks ms := by
  induction ms generalizing a with
  | nil => exact h.symm
  | cons m ms ih =>
    rw [ih h.2, h.1, acks_cons, Nat.add_assoc]

lemma tagged_append : Tagged a (ms ++ more) b ↔ ∃ k, Tagged a ms k ∧ Tagged k more b := by
  induction ms generalizing a with
  | nil => simp [Tagged]
  | cons m ms ih => simp [Tagged, ih, and_assoc]

lemma Tagged.le (h : Tagged a ms b) : ∀ m ∈ ms, a ≤ m.known ∧ m.known ≤ b := by
  induction ms generalizing a with
  | nil => simp
  | cons m ms ih =>
    have hfirst := h.1
    have hlast := h.2.eq
    intro m' hm'
    rcases List.mem_cons.mp hm' with rfl | hrest
    · omega
    · have hle := ih h.2 m' hrest
      omega

lemma Tagged.known_eq (h : Tagged a ms b) (hnone : ServerSend.infoAck ∉ ms.map InFlight.message) :
    ∀ m ∈ ms, m.known = a := by
  have hzero : acks ms = 0 := List.count_eq_zero.mpr hnone
  have hsame := h.eq
  intro m hm
  have hle := h.le m hm
  omega

end Tags

section Invariant

/-- What the client and the server make of the descriptions that have been sent. -/
structure Invariant (c : Conversation) : Prop where
  accepted_le : c.accepted ≤ c.infos.length
  changed_le : c.changed ≤ c.infos.length
  pending : c.serverOpen = true → c.toServer.filterMap ScreenInfo.ofSend = c.infos.drop c.accepted
  shape : ∀ i, c.infos[c.accepted - 1]? = some i → 0 < c.accepted → c.server.shape = i.received.shape
  tagged : Tagged c.acknowledged c.toClient c.accepted
  shapes : ∀ m ∈ c.toClient, ∀ i, c.infos[m.known - 1]? = some i → 0 < m.known → m.shape = i.received.shape
  idle : c.clientOpen = true → c.client.motion.Idle
  ignoring : c.clientOpen = true → c.client.motion.ignoreMouse = true → c.changed = c.acknowledged + c.behind + 1
  moving : c.clientOpen = true → c.client.motion.ignoreMouse = false → c.changed ≤ c.acknowledged + c.behind

lemma Invariant.acknowledged_le {c : Conversation} (h : c.Invariant) : c.acknowledged ≤ c.accepted := by
  have heq := h.tagged.eq
  omega

lemma start_invariant (file : FileAssembly) (settings : ClipboardSettings) (maximumClipboardSize : ℕ)
    (received : FileAssembly) : (start file settings maximumClipboardSize received).Invariant where
  accepted_le := le_rfl
  changed_le := le_rfl
  pending _ := rfl
  shape _ hi := by simp [start] at hi
  tagged := rfl
  shapes _ hm := by simp [start] at hm
  idle _ := ⟨rfl, rfl⟩
  ignoring _ h := by simp [start, Session.new, ServerProxy.new] at h
  moving _ _ := le_rfl

lemma getElem?_append_known {infos more : List ScreenInfo} {k : ℕ} (hk : k ≤ infos.length) (hpos : 0 < k)
    (i : ScreenInfo) (h : (infos ++ more)[k - 1]? = some i) : infos[k - 1]? = some i := by
  rwa [List.getElem?_append_left (by omega)] at h

lemma replies_infos {effects : List Client.Effect} {answers : List ScreenInfo}
    (h : answers.length = effects.count .sendInfo) : (replies effects answers).filterMap ScreenInfo.ofSend = answers := by
  induction effects generalizing answers with
  | nil =>
    rw [List.count_nil] at h
    rw [List.length_eq_zero_iff.mp h]
    rfl
  | cons e effects ih =>
    cases e with
    | sendInfo =>
      cases answers with
      | nil => simp at h
      | cons info answers =>
        rw [List.length_cons, List.count_cons_self, Nat.add_right_cancel_iff] at h
        simp [replies, ih h]
    | _ =>
      rw [List.count_cons_of_ne (by simp)] at h
      simp [replies, ih h, ScreenInfo.ofSend, List.filterMap_cons]

variable {c d : Conversation}

lemma shapeChanged_invariant (h : c.Invariant) (info : ScreenInfo) : (c.shapeChanged info).Invariant where
  accepted_le := by
    have hle := h.accepted_le
    simp only [shapeChanged, List.length_append, List.length_singleton]
    omega
  changed_le := by simp [shapeChanged]
  pending hopen := by
    have hpending := h.pending hopen
    simp only [shapeChanged, List.filterMap_append, List.drop_append_of_le_length h.accepted_le, hpending]
    simp
  shape i hi hpos := h.shape i (getElem?_append_known h.accepted_le hpos i hi) hpos
  tagged := h.tagged
  shapes m hm i hi hpos := by
    have hle := h.tagged.le m hm
    have hle' := h.accepted_le
    exact h.shapes m hm i (getElem?_append_known (by omega) hpos i hi) hpos
  idle hopen := ⟨(h.idle hopen).compressMouse, (h.idle hopen).compressMouseRelative⟩
  ignoring _ _ := by
    have hle := h.acknowledged_le
    have hle' := h.accepted_le
    simp only [shapeChanged]
    omega
  moving _ hmoves := by simp [shapeChanged, ServerProxy.onInfoChanged] at hmoves

lemma clientSends_invariant (h : c.Invariant) {m : ClientSend} (hm : ScreenInfo.ofSend m = none) :
    Invariant { c with toServer := c.toServer ++ [m] } where
  accepted_le := h.accepted_le
  changed_le := h.changed_le
  pending hopen := by simp [h.pending hopen, hm]
  shape := h.shape
  tagged := h.tagged
  shapes := h.shapes
  idle := h.idle
  ignoring := h.ignoring
  moving := h.moving

lemma serverSends_invariant (h : c.Invariant) {m : ServerSend} (hm : m ≠ .infoAck) : (c.serverSends m).Invariant where
  accepted_le := h.accepted_le
  changed_le := h.changed_le
  pending := h.pending
  shape := h.shape
  tagged := tagged_append.mpr ⟨c.accepted, h.tagged, by simp [Tagged, hm, serverSends]⟩
  shapes m' hm' := by
    rcases List.mem_append.mp hm' with hold | hnew
    · exact h.shapes m' hold
    · rw [List.mem_singleton.mp hnew]
      exact h.shape
  idle := h.idle
  ignoring := h.ignoring
  moving := h.moving

lemma clientTakes_invariant (h : c.Invariant) {n : ℕ} {answers : List ScreenInfo}
    (hanswers : answers.length = (c.client.takeAll uninit (c.batch n)).effects.count .sendInfo) (hopen : c.clientOpen = true) :
    (c.clientTakes uninit n answers).Invariant := by
  obtain ⟨k, htaken, hleft⟩ := tagged_append.mp ((List.take_append_drop n c.toClient).symm ▸ h.tagged)
  have hk : k = c.acknowledged + (c.batch n).count .infoAck := htaken.eq
  have hmotion : (c.client.takeAll uninit (c.batch n)).next = .goOn → _ := Session.takeAll_motion uninit
  exact {
    accepted_le := by
      have hle := h.accepted_le
      simp only [clientTakes, List.length_append]
      omega
    changed_le := by
      have hle := h.changed_le
      simp only [clientTakes, List.length_append]
      omega
    pending := fun hserver => by
      simp [clientTakes, h.pending hserver, replies_infos hanswers, List.drop_append_of_le_length h.accepted_le]
    shape := fun i hi hpos => h.shape i (getElem?_append_known h.accepted_le hpos i hi) hpos
    tagged := by
      rw [hk] at hleft
      exact hleft
    shapes := fun m hm i hi hpos => by
      have hm := List.mem_of_mem_drop hm
      have hle := h.tagged.le m hm
      have hle' := h.accepted_le
      exact h.shapes m hm i (getElem?_append_known (by omega) hpos i hi) hpos
    idle := fun hgo => (hmotion (of_decide_eq_true hgo)).1
    ignoring := fun hgo hignore => by
      obtain ⟨hbefore, hnone⟩ := (hmotion (of_decide_eq_true hgo)).2.mp hignore
      have hzero : (c.batch n).count .infoAck = 0 := List.count_eq_zero.mpr hnone
      have hchanged := h.ignoring hopen hbefore
      simp only [clientTakes]
      omega
    moving := fun hgo hmoves => by
      have hiff := (hmotion (of_decide_eq_true hgo)).2
      simp only [clientTakes] at hmoves ⊢
      cases hbefore : c.client.motion.ignoreMouse with
      | false =>
        have hchanged := h.moving hopen hbefore
        omega
      | true =>
        have hack : ServerSend.infoAck ∈ c.batch n := by
          by_contra hnone
          rw [hiff.mpr ⟨hbefore, hnone⟩] at hmoves
          contradiction
        have hpos : 0 < (c.batch n).count .infoAck := List.count_pos_iff.mpr hack
        have hchanged := h.ignoring hopen hbefore
        omega }

section Server

variable (uninit) (s : ClientProxy1_6)

lemma told_send (i : ScreenInfo) :
    s.told uninit i.send =
      if s.handshake then { s with handshake := false }.takeInfo i.received [.ready, .addHeartbeatTimer]
      else s.takeInfo i.received [.shapeChanged] := rfl

lemma told_accepted {i : ScreenInfo} (hi : i.received.Accepted) :
    (s.told uninit i.send).effects.count .sendInfoAck = 1 ∧ (s.told uninit i.send).state.shape = i.received.shape := by
  rw [told_send, ClientProxy1_6.takeInfo, ClientProxy1_6.takeInfo, if_pos hi, if_pos hi]
  split_ifs <;> exact ⟨rfl, rfl⟩

lemma told_refused {i : ScreenInfo} (hi : ¬i.received.Accepted) :
    (s.told uninit i.send).effects.count .sendInfoAck = 0 ∧ (s.told uninit i.send).state.shape = s.shape ∧
      (s.told uninit i.send).next = .leave := by
  rw [told_send, ClientProxy1_6.takeInfo, ClientProxy1_6.takeInfo, if_neg hi, if_neg hi]
  split_ifs <;> exact ⟨rfl, rfl, rfl⟩

lemma told_other {m : ClientSend} (hm : ScreenInfo.ofSend m = none) :
    (s.told uninit m).effects.count .sendInfoAck = 0 ∧ (s.told uninit m).state.shape = s.shape := by
  rw [ClientProxy1_6.told]
  split_ifs
  · cases m with
    | info x y w h mx my => contradiction
    | _ => exact ⟨rfl, rfl⟩
  · cases m with
    | info x y w h mx my => contradiction
    | grabClipboard id seqNum =>
      rw [ClientProxy1_6.toldInSession]
      split_ifs <;> exact ⟨rfl, rfl⟩
    | clipboardChunk chunk =>
      rw [ClientProxy1_6.toldInSession, ClientProxy1_6.takeChunk]
      dsimp only
      split_ifs <;> exact ⟨rfl, rfl⟩
    | fileChunk chunk =>
      rw [ClientProxy1_6.toldInSession, ClientProxy1_6.takeFileChunk]
      dsimp only
      split_ifs <;> exact ⟨rfl, rfl⟩
    | _ => exact ⟨rfl, rfl⟩

end Server

lemma serverTakes_kept (h : c.Invariant) {m : ClientSend} {rest : List ClientSend}
    (hcount : (c.server.told uninit m).effects.count .sendInfoAck = 0)
    (hshape : (c.server.told uninit m).state.shape = c.server.shape)
    (hpending : (c.server.told uninit m).next = .goOn → rest.filterMap ScreenInfo.ofSend = c.infos.drop c.accepted) :
    (c.serverTakes uninit m rest).Invariant := by
  have hsame : c.serverTakes uninit m rest = { c with
      server := (c.server.told uninit m).state
      serverOpen := (c.server.told uninit m).next = .goOn
      toServer := rest } := by
    simp [serverTakes, hcount]
  rw [hsame]
  exact {
    accepted_le := h.accepted_le
    changed_le := h.changed_le
    pending := fun hgo => hpending (of_decide_eq_true hgo)
    shape := fun i hi hpos => hshape.trans (h.shape i hi hpos)
    tagged := h.tagged
    shapes := h.shapes
    idle := h.idle
    ignoring := h.ignoring
    moving := h.moving }

lemma serverTakes_accepted (h : c.Invariant) {i : ScreenInfo} {rest : List ClientSend} (hi : i.received.Accepted)
    (hpending : i :: rest.filterMap ScreenInfo.ofSend = c.infos.drop c.accepted) :
    (c.serverTakes uninit i.send rest).Invariant := by
  obtain ⟨hcount, hshape⟩ := told_accepted uninit c.server hi
  have hsame : c.serverTakes uninit i.send rest = { c with
      server := (c.server.told uninit i.send).state
      serverOpen := (c.server.told uninit i.send).next = .goOn
      toServer := rest
      toClient := c.toClient ++ [⟨.infoAck, c.accepted + 1, (c.server.told uninit i.send).state.shape⟩]
      accepted := c.accepted + 1 } := by
    simp [serverTakes, hcount]
  rw [hsame]
  have hlength := congrArg List.length hpending
  rw [List.length_cons, List.length_drop] at hlength
  have hget : c.infos[c.accepted]? = some i := by
    have hhead := congrArg (fun infos => infos[0]?) hpending
    rw [List.getElem?_drop, Nat.add_zero] at hhead
    exact hhead.symm
  have hknown : ∀ j, c.infos[c.accepted + 1 - 1]? = some j → (c.server.told uninit i.send).state.shape = j.received.shape := by
    intro j hj
    rw [Nat.add_sub_cancel, hget] at hj
    rw [hshape, Option.some.inj hj]
  exact {
    accepted_le := by
      dsimp only
      omega
    changed_le := h.changed_le
    pending := fun _ => by
      have hdrop := congrArg List.tail hpending
      rwa [List.tail_cons, List.tail_drop] at hdrop
    shape := fun j hj _ => hknown j hj
    tagged := tagged_append.mpr ⟨c.accepted, h.tagged, by simp [Tagged]⟩
    shapes := fun m hm => by
      rcases List.mem_append.mp hm with hold | hnew
      · exact h.shapes m hold
      · rw [List.mem_singleton.mp hnew]
        exact fun j hj _ => hknown j hj
    idle := h.idle
    ignoring := h.ignoring
    moving := h.moving }

lemma eq_send {m : ClientSend} {i : ScreenInfo} (h : ScreenInfo.ofSend m = some i) : m = i.send := by
  cases m with
  | info x y w h' mx my =>
    obtain rfl := Option.some.inj h
    rfl
  | _ => contradiction

lemma serverTakes_invariant (h : c.Invariant) {m : ClientSend} {rest : List ClientSend} (hm : c.toServer = m :: rest)
    (hopen : c.serverOpen = true) : (c.serverTakes uninit m rest).Invariant := by
  have hpending := h.pending hopen
  rw [hm] at hpending
  cases hinfo : ScreenInfo.ofSend m with
  | none =>
    rw [List.filterMap_cons_none hinfo] at hpending
    obtain ⟨hcount, hshape⟩ := told_other uninit c.server hinfo
    exact serverTakes_kept h hcount hshape fun _ => hpending
  | some i =>
    rw [List.filterMap_cons_some hinfo] at hpending
    obtain rfl := eq_send hinfo
    by_cases hi : i.received.Accepted
    · exact serverTakes_accepted h hi hpending
    · obtain ⟨hcount, hshape, hleave⟩ := told_refused uninit c.server hi
      exact serverTakes_kept h hcount hshape fun hgo => by simp [hleave] at hgo

lemma next_invariant {e : Step} (h : c.Invariant) (hnext : c.next uninit e = some d) : d.Invariant := by
  cases e with
  | shapeChanged info =>
    rw [next] at hnext
    split_ifs at hnext
    exact Option.some.inj hnext ▸ shapeChanged_invariant h info
  | clientSends m =>
    rw [next] at hnext
    split_ifs at hnext with hm
    exact Option.some.inj hnext ▸ clientSends_invariant h hm.2
  | clientTakes n answers =>
    rw [next] at hnext
    split_ifs at hnext with hn
    exact Option.some.inj hnext ▸ clientTakes_invariant h hn.2 hn.1
  | serverSends m =>
    rw [next] at hnext
    split_ifs at hnext with hm
    exact Option.some.inj hnext ▸ serverSends_invariant h hm.2
  | serverTakes =>
    rw [next] at hnext
    split at hnext
    · rename_i m rest hm
      split_ifs at hnext with hopen
      exact Option.some.inj hnext ▸ serverTakes_invariant h hm hopen
    · contradiction

abbrev Reached (uninit : UInt64) : Conversation → Prop := Reachable Initial (next uninit) (fun _ _ => True)

lemma Reached.invariant (h : Reached uninit c) : c.Invariant := by
  apply Reachable.invariant (I := Invariant) _ _ h
  · rintro _ ⟨file, settings, maximumClipboardSize, received, rfl⟩
    exact start_invariant file settings maximumClipboardSize received
  · exact fun _ _ _ hs _ hnext => next_invariant hs hnext

end Invariant

section Stale

variable {c : Conversation}

/-- Motion from before the server knew of the last change of the screen. -/
def stale (c : Conversation) (m : InFlight) : Bool := m.message.isMotion && decide (m.known < c.changed)

/-- Motion for which the server lacked more descriptions up to that change than had been unacknowledged before it. -/
def ignored (c : Conversation) (m : InFlight) : Bool := m.message.isMotion && decide (m.known + c.behind < c.changed)

def without (c : Conversation) (out : InFlight → Bool) (n : ℕ) : List ServerSend :=
  ((c.toClient.take n).filter fun m => !out m).map InFlight.message

lemma ignored_of_answered (hanswered : c.behind = 0) : c.ignored = c.stale := by
  funext m
  rw [ignored, stale, hanswered, Nat.add_zero]

lemma filter_ignored {ms : List InFlight} {k : ℕ} (hknown : ∀ m ∈ ms, m.known = k) (hk : k + c.behind < c.changed) :
    (ms.filter fun m => !c.ignored m).map InFlight.message =
      (ms.map InFlight.message).filter fun m => !m.isMotion := by
  rw [List.filter_map]
  congr 1
  apply List.filter_congr
  intro m hm
  have hm := hknown m hm
  simp [ignored, hm, hk]

lemma filter_known {ms : List InFlight} (hknown : ∀ m ∈ ms, c.changed ≤ m.known + c.behind) :
    (ms.filter fun m => !c.ignored m) = ms := by
  rw [List.filter_eq_self]
  intro m hm
  have hm := hknown m hm
  simp [ignored, Nat.not_lt.mpr hm]

lemma split_acknowledged {a b : ℕ} {ms : List InFlight} (h : Tagged a ms b) :
    ∃ before behind, ms = before ++ behind ∧ ServerSend.infoAck ∉ before.map InFlight.message ∧
      (∀ m ∈ before, m.known = a) ∧ ∀ m ∈ behind, a + 1 ≤ m.known := by
  by_cases hack : ServerSend.infoAck ∈ ms.map InFlight.message
  · obtain ⟨before, rest, hmap, hnone⟩ := List.eq_append_cons_of_mem hack
    obtain ⟨pre, post, rfl, rfl, hpost⟩ := List.map_eq_append_iff.mp hmap
    obtain ⟨m, post, rfl, hm, -⟩ := List.map_eq_cons_iff.mp hpost
    obtain ⟨k, hpre, hrest⟩ := tagged_append.mp h
    have hk : k = a := by
      have hzero : acks pre = 0 := List.count_eq_zero.mpr hnone
      rw [hpre.eq, hzero, Nat.add_zero]
    have hfirst : m.known = k + 1 := by
      rw [hrest.1, if_pos hm]
    refine ⟨pre, m :: post, rfl, hnone, hpre.known_eq hnone, fun m' hm' => ?_⟩
    rcases List.mem_cons.mp hm' with rfl | hlater
    · omega
    · have hle := (hrest.2.le m' hlater).1
      omega
  · exact ⟨ms, [], (List.append_nil ms).symm, hack, h.known_eq hack, by simp⟩

lemma takeAll_without (h : Reached uninit c) (hopen : c.clientOpen = true) (hsession : c.client.handshake = false) (n : ℕ) :
    Session.unanswered (c.client.takeAll uninit (c.batch n)) =
      Session.unanswered (c.client.takeAll uninit (c.without c.ignored n)) := by
  have hinv := h.invariant
  have htagged := hinv.tagged
  rw [← List.take_append_drop n c.toClient] at htagged
  obtain ⟨b, htaken, -⟩ := tagged_append.mp htagged
  cases hignore : c.client.motion.ignoreMouse with
  | false =>
    have hmoving := hinv.moving hopen hignore
    have hall : ∀ m ∈ c.toClient.take n, c.changed ≤ m.known + c.behind := by
      intro m hm
      have hle := (htaken.le m hm).1
      omega
    rw [without, filter_known hall]
    rfl
  | true =>
    have hignoring : c.client.Ignoring := ⟨hsession, hignore, hinv.idle hopen⟩
    have hchanged := hinv.ignoring hopen hignore
    obtain ⟨before, rest, hsplit, hnone, hbefore, hrest⟩ := split_acknowledged htaken
    have hall : ∀ m ∈ rest, c.changed ≤ m.known + c.behind := by
      intro m hm
      have hle := hrest m hm
      omega
    rw [batch, without, hsplit, List.filter_append, List.map_append, List.map_append, filter_known hall,
      filter_ignored hbefore (by omega)]
    exact hignoring.takeAll_append uninit hnone _

lemma shape_known (h : Reached uninit c) : ∀ m ∈ c.toClient, 0 < m.known →
    ∃ i, c.infos[m.known - 1]? = some i ∧ m.shape = i.received.shape := by
  have hinv := h.invariant
  intro m hm hpos
  have hle := (hinv.tagged.le m hm).2
  have hlength := hinv.accepted_le
  obtain ⟨i, hi⟩ : ∃ i, c.infos[m.known - 1]? = some i := ⟨_, List.getElem?_eq_getElem (by omega)⟩
  exact ⟨i, hi, hinv.shapes m hm i hi hpos⟩

/-- A session does the same with the messages of a server as with those that it does not ignore, and ignores what is
stale if every description from before the change had been acknowledged. -/
theorem takeAll_fresh (h : Reached uninit c) (hopen : c.clientOpen = true) (hsession : c.client.handshake = false) (n : ℕ) :
    (Session.unanswered (c.client.takeAll uninit (c.batch n)) =
        Session.unanswered (c.client.takeAll uninit (c.without c.ignored n)) ∧
      (c.behind = 0 → Session.unanswered (c.client.takeAll uninit (c.batch n)) =
        Session.unanswered (c.client.takeAll uninit (c.without c.stale n)))) ∧
      ∀ m ∈ c.toClient, 0 < m.known → ∃ i, c.infos[m.known - 1]? = some i ∧ m.shape = i.received.shape := by
  have hwithout := takeAll_without h hopen hsession n
  exact ⟨⟨hwithout, fun hanswered => ignored_of_answered hanswered ▸ hwithout⟩, shape_known h⟩

/-- While the client ignores the motion of the mouse, a description or an acknowledgment is on its way. -/
theorem ignoring_pending (h : Reached uninit c) (hclient : c.clientOpen = true) (hserver : c.serverOpen = true) :
    c.infos.length = c.acknowledged + acks c.toClient + (c.toServer.filterMap ScreenInfo.ofSend).length ∧
      (c.client.motion.ignoreMouse = true →
        ServerSend.infoAck ∈ c.toClient.map InFlight.message ∨ ∃ i, ScreenInfo.send i ∈ c.toServer) := by
  have hinv := h.invariant
  have haccepted := hinv.tagged.eq
  have hle := hinv.accepted_le
  have hlength := congrArg List.length (hinv.pending hserver)
  rw [List.length_drop] at hlength
  refine ⟨by omega, fun hignore => ?_⟩
  have hchanged := hinv.ignoring hclient hignore
  have hchanged' := hinv.changed_le
  rcases Nat.eq_zero_or_pos (acks c.toClient) with hzero | hpos
  · have hpos : 0 < (c.toServer.filterMap ScreenInfo.ofSend).length := by omega
    obtain ⟨i, hi⟩ := List.exists_mem_of_length_pos hpos
    obtain ⟨m, hm, hsend⟩ := List.mem_filterMap.mp hi
    exact .inr ⟨i, eq_send hsend ▸ hm⟩
  · exact .inl (List.count_pos_iff.mp hpos)

def staleSteps : List Step :=
  [.serverSends .queryInfo, .serverSends (.setOptions []), .clientTakes 2 [⟨0, 0, 800, 600, 0, 0⟩], .serverTakes,
    .clientTakes 1 [], .shapeChanged ⟨0, 0, 1024, 768, 0, 0⟩, .serverSends (.mouseMove 799 0)]

lemma staleSteps_reached : ∃ c, Reached 0 c ∧ (c.clientOpen = true ∧ c.serverOpen = true) ∧
    (c.client.handshake = false ∧ c.client.motion.ignoreMouse = true) ∧ c.behind = 0 ∧
    c.toClient.map InFlight.message = [.mouseMove 799 0] ∧ c.without c.stale 1 = [] :=
  Reachable.exists_of_run ⟨{}, ⟨true, 100⟩, 100, {}, rfl⟩ staleSteps (by decide)

theorem takeAll_fresh_mouseMove : ∃ c, Reached 0 c ∧
    Session.unanswered (c.client.takeAll 0 [.mouseMove 799 0]) = Session.unanswered (c.client.takeAll 0 []) := by
  obtain ⟨c, hc, ⟨hopen, -⟩, ⟨hsession, -⟩, hanswered, hmessages, hstale⟩ := staleSteps_reached
  have h := (takeAll_fresh hc hopen hsession 1).1.2 hanswered
  rw [batch, List.map_take, hmessages, hstale] at h
  exact ⟨c, hc, h⟩

-- the screen changes twice: the first acknowledgment lets motion through that the server sent before it knew of the second
example : ∃ c, Reached 0 c ∧ c.behind = 1 ∧ (c.toClient.filter c.stale).map InFlight.message = [.mouseMove 1000 0] ∧
    .call (.mouseMove 1000 0) ∈ (c.client.takeAll 0 (c.batch 2)).effects :=
  Reachable.exists_of_run ⟨{}, ⟨true, 100⟩, 100, {}, rfl⟩
    [.serverSends .queryInfo, .serverSends (.setOptions []), .clientTakes 2 [⟨0, 0, 800, 600, 0, 0⟩], .serverTakes,
      .clientTakes 1 [], .shapeChanged ⟨0, 0, 1024, 768, 0, 0⟩, .shapeChanged ⟨0, 0, 640, 480, 0, 0⟩, .serverTakes,
      .serverTakes, .serverSends (.mouseMove 1000 0)] (by decide)

theorem ignoring_pending_info : ∃ c, Reached 0 c ∧ ∃ i, ScreenInfo.send i ∈ c.toServer := by
  obtain ⟨c, hc, ⟨hclient, hserver⟩, ⟨-, hignore⟩, -, hmessages, -⟩ := staleSteps_reached
  rcases (ignoring_pending hc hclient hserver).2 hignore with hack | hinfo
  · simp [hmessages] at hack
  · exact ⟨c, hc, hinfo⟩

end Stale

end Conversation

end InputLeap
