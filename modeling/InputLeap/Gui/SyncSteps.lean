import InputLeap.Gui.SyncService

/-! What the operations of the settings channel leave as it is. Requests, acks and documents only add lines to what was
written to the peers. -/

namespace InputLeap.Gui

open InputLeap.Lib

lemma Object.string_put (o : Object) (key : String) (value : Name) : (o.put key (.string value)).string key = value := by
  rw [Object.string, Object.put, OrdMap.find?_set_self]

namespace SyncService

variable {ctx : SyncContext} {s t u : SyncService} {ok : ℕ → Object → Prop} {p q : Peer}

def words : List Name := ["hello".toList, "access".toList, "ack".toList] ++ requestKinds.map fun k => k.toString.toList

def IsRequest (s : SyncService) (number : ℕ) (line : Object) : Prop :=
  number ∈ s.verifiedNumbers ∧ ∃ kind : RequestKind, line.string "type" = kind.toString.toList

section Talked

def Spoken (ok : ℕ → Object → Prop) (p q : Peer) : Prop :=
  ∃ lines, (∀ line ∈ lines, ok p.number line) ∧ q = { p with sent := p.sent ++ lines }

lemma Spoken.refl (p : Peer) : Spoken ok p p := ⟨[], List.forall_mem_nil _, by rw [List.append_nil]⟩

lemma Spoken.trans {r : Peer} (h : Spoken ok p q) (h' : Spoken ok q r) : Spoken ok p r := by
  obtain ⟨lines, hlines, rfl⟩ := h
  obtain ⟨lines', hlines', rfl⟩ := h'
  exact ⟨lines ++ lines', List.forall_mem_append.mpr ⟨hlines, hlines'⟩, by rw [List.append_assoc]⟩

def frame (s : SyncService) : SyncService := { s with peers := [], pending := [], requests := 0, answers := [] }

structure Talked (ok : ℕ → Object → Prop) (s t : SyncService) : Prop where
  peers : List.Forall₂ (Spoken ok) s.peers t.peers
  frame : t.frame = s.frame

namespace Talked

lemma refl (s : SyncService) : Talked ok s s := ⟨List.forall₂_same.mpr fun p _ => .refl p, rfl⟩

lemma trans (h : Talked ok s t) (h' : Talked ok t u) : Talked ok s u := by
  refine ⟨?_, h'.frame.trans h.frame⟩
  obtain ⟨hlength, hpeers⟩ := List.forall₂_iff_get.mp h.peers
  obtain ⟨hlength', hpeers'⟩ := List.forall₂_iff_get.mp h'.peers
  apply List.forall₂_iff_get.mpr
  exact ⟨hlength.trans hlength', fun i hi hi' => (hpeers i hi (hlength ▸ hi)).trans (hpeers' i (hlength ▸ hi) hi')⟩

lemma mono {ok' : ℕ → Object → Prop} (hok : ∀ number line, ok number line → ok' number line) (h : Talked ok s t) : Talked ok' s t := by
  refine ⟨h.peers.imp fun p q hpq => ?_, h.frame⟩
  obtain ⟨lines, hlines, heq⟩ := hpq
  exact ⟨lines, fun line hline => hok _ line (hlines line hline), heq⟩

lemma foldl {α : Type} {f : SyncService → α → SyncService} (hf : ∀ s a, Talked ok s (f s a)) (as : List α)
    (s : SyncService) : Talked ok s (as.foldl f s) := by
  induction as generalizing s with
  | nil => exact .refl s
  | cons a as ih => exact (hf s a).trans (ih (f s a))

lemma targets (h : Talked ok s t) : t.targets = s.targets := (congrArg SyncService.targets h.frame :)
lemma listening (h : Talked ok s t) : t.listening = s.listening := (congrArg SyncService.listening h.frame :)
lemma identityReady (h : Talked ok s t) : t.identityReady = s.identityReady := (congrArg SyncService.identityReady h.frame :)
lemma connections (h : Talked ok s t) : t.connections = s.connections := (congrArg SyncService.connections h.frame :)
lemma documents (h : Talked ok s t) : t.documents = s.documents := (congrArg SyncService.documents h.frame :)
lemma dirty (h : Talked ok s t) : t.dirty = s.dirty := (congrArg SyncService.dirty h.frame :)

lemma map_peers {α : Type} (h : Talked ok s t) (f : Peer → α) (hf : ∀ p lines, f { p with sent := lines } = f p) :
    t.peers.map f = s.peers.map f := by
  have hpeers := h.peers
  generalize s.peers = ps at hpeers
  generalize t.peers = qs at hpeers
  induction hpeers with
  | nil => rfl
  | cons hpq _ ih =>
    obtain ⟨lines, -, rfl⟩ := hpq
    rw [List.map_cons, List.map_cons, hf, ih]

lemma verifiedNumbers (h : Talked ok s t) : t.verifiedNumbers = s.verifiedNumbers := by
  have hview (u : SyncService) : u.verifiedNumbers =
      ((u.peers.map fun p => (p.verified, p.number)).filter Prod.fst).map Prod.snd := by
    rw [SyncService.verifiedNumbers, List.filter_map, List.map_map]
    rfl
  rw [hview, hview, h.map_peers (fun p => (p.verified, p.number)) fun _ _ => rfl]

lemma andThen (h : Talked (IsRequest s) s t) (h' : Talked (IsRequest t) t u) : Talked (IsRequest s) s u := by
  have hsame : IsRequest t = IsRequest s := by
    funext number line
    rw [IsRequest, IsRequest, h.verifiedNumbers]
  exact h.trans (hsame ▸ h')

lemma foldl_andThen {α : Type} {f : SyncService → α → SyncService} (hf : ∀ s a, Talked (IsRequest s) s (f s a)) (as : List α)
    (s : SyncService) : Talked (IsRequest s) s (as.foldl f s) := by
  induction as generalizing s with
  | nil => exact .refl s
  | cons a as ih => exact (hf s a).andThen (ih (f s a))

end Talked

lemma talked_writeLine (s : SyncService) (number : ℕ) {line : Object} (h : ok number line) :
    Talked ok s (s.writeLine number line) := by
  refine ⟨?_, rfl⟩
  rw [writeLine, modifyPeer]
  apply List.forall₂_map_right_iff.mpr
  apply List.forall₂_same.mpr
  intro p _
  split_ifs with hnumber
  · exact ⟨[line], List.forall_mem_singleton.mpr (hnumber.symm ▸ h), rfl⟩
  · exact .refl p

lemma talked_sendDocument (s : SyncService) (number : ℕ) (kind : Name) (document : Object) :
    Talked (fun _ _ => True) s (s.sendDocument number kind document) := talked_writeLine s number trivial

lemma mem_verifiedNumbers (hp : p ∈ s.peers) (hverified : p.verified = true) : p.number ∈ s.verifiedNumbers :=
  List.mem_map_of_mem (List.mem_filter.mpr ⟨hp, hverified⟩)

lemma peerNamed_verified {name : Name} (h : s.peerNamed ctx name = some p) : p.number ∈ s.verifiedNumbers := by
  have hfound := List.find?_some h
  rw [Bool.and_eq_true] at hfound
  exact mem_verifiedNumbers (List.mem_of_find?_eq_some h) hfound.1

lemma addressee_verified {name : Name} {kind : RequestKind} (h : s.addressee ctx name kind = .ok p) :
    p.number ∈ s.verifiedNumbers := by
  rw [addressee] at h
  split at h
  · cases h
  · rename_i q hq
    split_ifs at h
    obtain rfl := Except.ok.inj h
    exact peerNamed_verified hq

lemma talked_failAtOnce (s : SyncService) (text : Name) : Talked ok s (s.failAtOnce text) := ⟨(Talked.refl s).peers, rfl⟩

lemma talked_run (script : Script) (s : SyncService) : Talked (IsRequest s) s (run ctx script s) := by
  induction script generalizing s with
  | done => exact .refl s
  | request peerName kind body handler next ih ihnext =>
    rw [run]
    split
    · exact ((talked_failAtOnce s _).andThen (ih _ _)).andThen (ihnext _)
    · rename_i p hp
      have hrequest : IsRequest s p.number
          ((body.put "id" (.string (ctx.uuid s.requests))).put "type" (.string kind.toString.toList)) :=
        ⟨addressee_verified hp, kind, Object.string_put _ _ _⟩
      have hsent : Talked (IsRequest s) s (s.sendRequest ctx p peerName kind body handler) :=
        ⟨(talked_writeLine s p.number hrequest).peers, rfl⟩
      exact hsent.andThen (ihnext _)

lemma talked_finish (e : Pending) (ack : Object) (sender : Option ℕ) (s : SyncService) :
    Talked (IsRequest s) s (s.finish ctx e ack sender) := by
  have hsame : Talked (IsRequest s) s
      { s with
        pending := s.pending.filter fun d => d.number ≠ e.number
        answers := s.answers ++ [⟨e.number, some e.addressee, sender, ack⟩] } :=
    ⟨(Talked.refl s).peers, rfl⟩
  exact hsame.andThen (talked_run _ _)

lemma talked_finishPending (id : Name) (ack : Object) (sender : Option ℕ) (s : SyncService) :
    Talked (IsRequest s) s (s.finishPending ctx id ack sender) := by
  rw [finishPending]
  split
  · exact .refl s
  · exact talked_finish _ _ _ s

lemma talked_failOne (which : Pending → Bool) (text : Name) (s : SyncService) (number : ℕ) :
    Talked (IsRequest s) s (failOne ctx which text s number) := by
  rw [failOne]
  split
  · exact .refl s
  · split_ifs
    · exact talked_finish _ _ _ s
    · exact .refl s

lemma talked_failPending (which : Pending → Bool) (text : Name) (s : SyncService) :
    Talked (IsRequest s) s (s.failPending ctx which text) := Talked.foldl_andThen (talked_failOne which text) _ s

lemma talked_publish (kinds : List Name) (s : SyncService) (number : ℕ) :
    Talked (fun _ _ => True) s (publish kinds s number) := by
  apply Talked.foldl
  intro s kind
  exact talked_sendDocument s number kind _

end Talked

lemma talked_sendAll (s : SyncService) (number : ℕ) : Talked (fun _ _ => True) s (s.sendAll number) := by
  apply Talked.foldl
  intro s e
  exact talked_sendDocument s number e.1 e.2

lemma dropPeer_eq (ctx : SyncContext) (s : SyncService) (p : Peer) : ∃ u, Talked (IsRequest (s.removePeer p.number)) (s.removePeer p.number) u ∧
    s.dropPeer ctx p = if p.incoming then u else u.scheduleRetry p.targetKey := by
  unfold dropPeer
  split_ifs
  · exact ⟨_, talked_failPending _ _ _, rfl⟩
  · exact ⟨_, talked_failPending _ _ _, rfl⟩
  · exact ⟨_, .refl _, rfl⟩
  · exact ⟨_, .refl _, rfl⟩

section Views

/-! A view of the peers that leaves out what was written to them. -/

variable {α : Type} {f : Peer → α} (hf : ∀ p lines, f { p with sent := lines } = f p)

lemma map_modifyPeer {g : Peer → Peer} (s : SyncService) (number : ℕ) (h : ∀ p, f (g p) = f p) :
    (s.modifyPeer number g).peers.map f = s.peers.map f := by
  rw [modifyPeer, List.map_map]
  apply List.map_congr_left
  intro p _
  rw [Function.comp_apply]
  split_ifs
  · exact h p
  · rfl

include hf

lemma map_sendDocument (s : SyncService) (number : ℕ) (kind : Name) (document : Object) :
    (s.sendDocument number kind document).peers.map f = s.peers.map f :=
  (talked_sendDocument s number kind document).map_peers f hf

lemma map_dropPeer (s : SyncService) (p : Peer) :
    (s.dropPeer ctx p).peers.map f = (s.peers.filter fun q => q.number ≠ p.number).map f := by
  obtain ⟨u, htalked, hdrop⟩ := dropPeer_eq ctx s p
  rw [hdrop]
  split_ifs
  · exact htalked.map_peers f hf
  · exact htalked.map_peers f hf

end Views

lemma mem_of_peer {number : ℕ} (h : s.peer number = some p) : p ∈ s.peers ∧ p.number = number :=
  ⟨List.mem_of_find?_eq_some h, by simpa using List.find?_some h⟩

lemma mem_modifyPeer {g : Peer → Peer} (hp : p ∈ s.peers) : g p ∈ (s.modifyPeer p.number g).peers :=
  List.mem_map.mpr ⟨p, hp, if_pos rfl⟩

lemma attempt_cases (s : SyncService) (key : Name) :
    s.attempt key = s ∧ (s.identityReady = true → s.listening = true → s.target key ≠ none → s.hasOutgoing key = true) ∨
    ∃ t : Target, s.hasOutgoing key = false ∧
      s.attempt key = (s.modifyTarget key fun t => { t with timer := false }).attach false key t.name := by
  rw [attempt]
  by_cases hready : s.identityReady = false ∨ s.listening = false
  · rw [if_pos hready]
    refine .inl ⟨rfl, fun hidentity hlistening _ => ?_⟩
    rw [hidentity, hlistening] at hready
    simp at hready
  · rw [if_neg hready]
    cases htarget : s.target key with
    | none => exact .inl ⟨rfl, fun _ _ hne => absurd rfl hne⟩
    | some t =>
      by_cases hbusy : s.hasOutgoing key = true
      · exact .inl ⟨if_pos hbusy, fun _ _ _ => hbusy⟩
      · exact .inr ⟨t, by simpa using hbusy, if_neg hbusy⟩

lemma connections_dropPeer (s : SyncService) (p : Peer) : (s.dropPeer ctx p).connections = s.connections := by
  obtain ⟨u, htalked, hdrop⟩ := dropPeer_eq ctx s p
  rw [hdrop]
  split_ifs
  · exact htalked.connections
  · exact htalked.connections

inductive Step (ctx : SyncContext) (s : SyncService) : ChannelEvent → SyncService → Prop
  | start (ready listens : Bool) : Step ctx s (.start ready listens) (s.start ctx ready listens)
  | stop : Step ctx s .stop (s.stop ctx)
  | setLocalInfo (name role version : Name) :
    Step ctx s (.setLocalInfo name role version) (s.setLocalInfo name role version)
  | setDocument (kind : Name) (document : Object) : Step ctx s (.setDocument kind document) (s.setDocument kind document)
  | broadcastTimeout : Step ctx s .broadcastTimeout s.broadcast
  | request (peerName : Name) (kind : RequestKind) (body : Object) (handler : AckHandler) :
    Step ctx s (.request peerName kind body handler) (run ctx (.request peerName kind body handler .done) s)
  | requestTimeout (e : Pending) (he : e ∈ s.pending) :
    Step ctx s (.requestTimeout e.number) (s.finish ctx e (failedAck ("no answer from ".toList ++ e.peerName)) none)
  | answer (peerName : Name) (id : Json) (ack : Object) : Step ctx s (.answer peerName id ack) (s.answer ctx peerName id ack)
  | acceptIncoming : Step ctx s .acceptIncoming s.acceptIncoming
  | connectTo (name host : Name) (port : ℕ) : Step ctx s (.connectTo name host port) (s.connectTo ctx name host port)
  | forget (key : Name) : Step ctx s (.forget key) (s.forget ctx key)
  | retryNow : Step ctx s .retryNow s.retryNow
  | retryTimeout (key : Name) :
    Step ctx s (.retryTimeout key) ((s.modifyTarget key fun t => { t with timer := false }).attempt key)
  | reevaluateAccess : Step ctx s .reevaluateAccess (s.reevaluateAccess ctx)
  | encrypted {p : Peer} (hp : s.peer p.number = some p) (hfresh : p.fingerprint = []) (fingerprint : Name) :
    Step ctx s (.encrypted p.number fingerprint) (s.onEncrypted ctx p fingerprint)
  | line {p : Peer} (hp : s.peer p.number = some p) (hencrypted : p.fingerprint ≠ []) (line : Object) :
    Step ctx s (.line p.number line) (s.handleLine ctx p line)
  | helloTimeout {p : Peer} (hp : s.peer p.number = some p) (htimer : p.helloTimer = true) :
    Step ctx s (.helloTimeout p.number) (s.dropPeer ctx p)
  | disconnected {p : Peer} (hp : s.peer p.number = some p) : Step ctx s (.disconnected p.number) (s.dropPeer ctx p)

lemma step_of_next {e : ChannelEvent} (h : s.next ctx e = some t) : Step ctx s e t := by
  cases e with
  | start ready listens =>
    obtain rfl := Option.some.inj h
    exact .start ready listens
  | stop =>
    obtain rfl := Option.some.inj h
    exact .stop
  | setLocalInfo name role version =>
    obtain rfl := Option.some.inj h
    exact .setLocalInfo name role version
  | setDocument kind document =>
    obtain rfl := Option.some.inj h
    exact .setDocument kind document
  | broadcastTimeout =>
    obtain ⟨-, heq⟩ := Option.ite_none_right_eq_some.mp h
    obtain rfl := Option.some.inj heq
    exact .broadcastTimeout
  | request peerName kind body handler =>
    obtain rfl := Option.some.inj h
    exact .request peerName kind body handler
  | requestTimeout number =>
    obtain ⟨e, he, rfl⟩ := Option.map_eq_some_iff.mp h
    obtain rfl : e.number = number := by simpa using List.find?_some he
    exact .requestTimeout e (List.mem_of_find?_eq_some he)
  | answer peerName id ack =>
    obtain rfl := Option.some.inj h
    exact .answer peerName id ack
  | acceptIncoming =>
    obtain ⟨-, heq⟩ := Option.ite_none_right_eq_some.mp h
    obtain rfl := Option.some.inj heq
    exact .acceptIncoming
  | connectTo name host port =>
    obtain rfl := Option.some.inj h
    exact .connectTo name host port
  | forget key =>
    obtain rfl := Option.some.inj h
    exact .forget key
  | retryNow =>
    obtain rfl := Option.some.inj h
    exact .retryNow
  | retryTimeout key =>
    obtain ⟨-, heq⟩ := Option.ite_none_right_eq_some.mp h
    obtain rfl := Option.some.inj heq
    exact .retryTimeout key
  | reevaluateAccess =>
    obtain rfl := Option.some.inj h
    exact .reevaluateAccess
  | encrypted number fingerprint =>
    obtain ⟨p, hp, hif⟩ := Option.bind_eq_some_iff.mp h
    obtain ⟨hfresh, heq⟩ := Option.ite_none_right_eq_some.mp hif
    obtain rfl := Option.some.inj heq
    obtain rfl := (mem_of_peer hp).2
    exact .encrypted hp hfresh fingerprint
  | line number line =>
    obtain ⟨p, hp, hif⟩ := Option.bind_eq_some_iff.mp h
    obtain ⟨hencrypted, heq⟩ := Option.ite_none_left_eq_some.mp hif
    obtain rfl := Option.some.inj heq
    obtain rfl := (mem_of_peer hp).2
    exact .line hp hencrypted line
  | helloTimeout number =>
    obtain ⟨p, hp, hif⟩ := Option.bind_eq_some_iff.mp h
    obtain ⟨htimer, heq⟩ := Option.ite_none_right_eq_some.mp hif
    obtain rfl := Option.some.inj heq
    obtain rfl := (mem_of_peer hp).2
    exact .helloTimeout hp htimer
  | disconnected number =>
    obtain ⟨p, hp, rfl⟩ := Option.map_eq_some_iff.mp h
    obtain rfl := (mem_of_peer hp).2
    exact .disconnected hp

end SyncService

end InputLeap.Gui
