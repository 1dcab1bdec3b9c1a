import InputLeap.Gui.SyncSteps

/-! What most events leave of the connections: peers go, new ones come, and those that stay are told no documents. -/

namespace InputLeap.Gui

open InputLeap.Lib

namespace SyncService

variable {ctx : SyncContext} {s t u : SyncService} {p q r : Peer}

structure Numbered (s : SyncService) : Prop where
  below : ∀ n ∈ s.peers.map Peer.number, n < s.connections
  distinct : (s.peers.map Peer.number).Nodup

lemma Numbered.eq (h : Numbered s) (hp : p ∈ s.peers) (hq : q ∈ s.peers) (hnumber : p.number = q.number) : p = q :=
  List.inj_on_of_nodup_map h.distinct hp hq hnumber

lemma Numbered.verified (h : Numbered s) (hp : p ∈ s.peers) : p.number ∈ s.verifiedNumbers ↔ p.verified = true := by
  constructor
  · intro hnumber
    obtain ⟨q, hq, hsame⟩ := List.mem_map.mp hnumber
    obtain ⟨hq, hverified⟩ := List.mem_filter.mp hq
    rwa [← h.eq hq hp hsame]
  · exact mem_verifiedNumbers hp

lemma Numbered.sublist (h : Numbered s) (hconnections : t.connections = s.connections)
    (hpeers : (t.peers.map Peer.number).Sublist (s.peers.map Peer.number)) : Numbered t := by
  refine ⟨fun n hn => ?_, h.distinct.sublist hpeers⟩
  rw [hconnections]
  exact h.below n (hpeers.subset hn)

lemma Numbered.talked {ok : ℕ → Object → Prop} (h : Numbered s) (htalked : Talked ok s t) : Numbered t :=
  h.sublist htalked.connections ((htalked.map_peers Peer.number fun _ _ => rfl) ▸ List.Sublist.refl _)

lemma Numbered.modifyPeer (h : Numbered s) (number : ℕ) {f : Peer → Peer} (hf : ∀ p, (f p).number = p.number) :
    Numbered (s.modifyPeer number f) := h.sublist rfl (map_modifyPeer s number hf ▸ List.Sublist.refl _)

/-- A verified peer may be sent more lines, none of which is a document. -/
structure Continues (p q : Peer) : Prop where
  number : q.number = p.number
  verified : q.verified = p.verified
  fingerprint : q.fingerprint = p.fingerprint
  documents : q.documents = p.documents
  received : q.received = p.received
  sent : ∃ lines, (∀ line ∈ lines, p.verified = true ∧ line.string "type" ∈ words) ∧ q.sent = p.sent ++ lines

lemma Continues.refl (p : Peer) : Continues p p :=
  ⟨rfl, rfl, rfl, rfl, rfl, [], List.forall_mem_nil _, (List.append_nil _).symm⟩

lemma Continues.trans (h : Continues p q) (h' : Continues q r) : Continues p r := by
  obtain ⟨lines, hlines, hsent⟩ := h.sent
  obtain ⟨lines', hlines', hsent'⟩ := h'.sent
  constructor
  · exact h'.number.trans h.number
  · exact h'.verified.trans h.verified
  · exact h'.fingerprint.trans h.fingerprint
  · exact h'.documents.trans h.documents
  · exact h'.received.trans h.received
  · refine ⟨lines ++ lines', List.forall_mem_append.mpr ⟨hlines, ?_⟩, ?_⟩
    · rw [← h.verified]
      exact hlines'
    · rw [hsent', hsent, List.append_assoc]

structure Fresh (p : Peer) : Prop where
  unverified : p.verified = false
  fingerprint : p.fingerprint = []
  documents : p.documents = .empty
  sent : p.sent = []
  received : p.received = []

structure Grown (s t : SyncService) : Prop where
  connections : s.connections ≤ t.connections
  documents : t.documents = s.documents
  dirty : t.dirty = s.dirty
  numbered : Numbered s → Numbered t
  peers : Numbered s → ∀ q ∈ t.peers, (∃ p ∈ s.peers, Continues p q) ∨ s.connections ≤ q.number ∧ Fresh q

lemma Talked.exists_spoken {ok : ℕ → Object → Prop} (h : Talked ok s t) (hq : q ∈ t.peers) : ∃ p ∈ s.peers, Spoken ok p q := by
  obtain ⟨i, hi, rfl⟩ := List.mem_iff_getElem.mp hq
  obtain ⟨hlength, hpeers⟩ := List.forall₂_iff_get.mp h.peers
  exact ⟨_, List.getElem_mem _, hpeers i (hlength ▸ hi) hi⟩

namespace Grown

lemma refl (s : SyncService) : Grown s s := ⟨Nat.le_refl _, rfl, rfl, id, fun _ q hq => .inl ⟨q, hq, .refl q⟩⟩

lemma trans (h : Grown s t) (h' : Grown t u) : Grown s u := by
  constructor
  · exact h.connections.trans h'.connections
  · exact h'.documents.trans h.documents
  · exact h'.dirty.trans h.dirty
  · exact fun hs => h'.numbered (h.numbered hs)
  · intro hs r hr
    rcases h'.peers (h.numbered hs) r hr with ⟨q, hq, hqr⟩ | ⟨hnew, hfresh⟩
    · rcases h.peers hs q hq with ⟨p, hp, hpq⟩ | ⟨hnew, hfresh⟩
      · exact .inl ⟨p, hp, hpq.trans hqr⟩
      · obtain ⟨lines, hlines, hsent⟩ := hqr.sent
        obtain rfl : lines = [] := by
          apply List.eq_nil_iff_forall_not_mem.mpr
          intro line hline
          have hverified := (hlines line hline).1
          rw [hfresh.unverified] at hverified
          cases hverified
        refine .inr ⟨hqr.number ▸ hnew, ?_⟩
        constructor
        · exact hqr.verified.trans hfresh.unverified
        · exact hqr.fingerprint.trans hfresh.fingerprint
        · exact hqr.documents.trans hfresh.documents
        · rw [hsent, hfresh.sent, List.append_nil]
        · exact hqr.received.trans hfresh.received
    · exact .inr ⟨h.connections.trans hnew, hfresh⟩

lemma of_sublist (hconnections : t.connections = s.connections) (hdocuments : t.documents = s.documents)
    (hdirty : t.dirty = s.dirty) (hpeers : t.peers.Sublist s.peers) : Grown s t :=
  ⟨hconnections.ge, hdocuments, hdirty, fun hs => hs.sublist hconnections (hpeers.map _),
    fun _ q hq => .inl ⟨q, hpeers.subset hq, .refl q⟩⟩

lemma talked (h : Talked (fun number line => number ∈ s.verifiedNumbers ∧ line.string "type" ∈ words) s t) : Grown s t := by
  refine ⟨h.connections.ge, h.documents, h.dirty, fun hs => hs.talked h, fun hs q hq => .inl ?_⟩
  obtain ⟨p, hp, lines, hlines, rfl⟩ := h.exists_spoken hq
  exact ⟨p, hp, rfl, rfl, rfl, rfl, rfl, lines, fun line hline =>
    ⟨(hs.verified hp).mp (hlines line hline).1, (hlines line hline).2⟩, rfl⟩

lemma requested (h : Talked (IsRequest s) s t) : Grown s t := by
  apply Grown.talked
  apply h.mono
  rintro number line ⟨hverified, kind, hkind⟩
  refine ⟨hverified, ?_⟩
  rw [hkind]
  cases kind <;> decide

lemma modifyPeer (s : SyncService) (number : ℕ) {f : Peer → Peer} (hf : ∀ p, Continues p (f p)) :
    Grown s (s.modifyPeer number f) := by
  refine ⟨Nat.le_refl _, rfl, rfl, fun hs => hs.modifyPeer number fun p => (hf p).number, fun _ => ?_⟩
  rw [SyncService.modifyPeer, List.forall_mem_map]
  intro p hp
  split_ifs
  · exact .inl ⟨p, hp, hf p⟩
  · exact .inl ⟨p, hp, .refl p⟩

lemma attach (s : SyncService) (incoming : Bool) (targetKey targetName : Name) :
    Grown s (s.attach incoming targetKey targetName) := by
  have hpeers : (s.attach incoming targetKey targetName).peers.map Peer.number = s.peers.map Peer.number ++ [s.connections] := by
    rw [SyncService.attach, List.map_append]
    rfl
  refine ⟨Nat.le_succ _, rfl, rfl, fun hs => ⟨?_, ?_⟩, fun _ q hq => ?_⟩
  · rw [hpeers, List.forall_mem_append, List.forall_mem_singleton]
    exact ⟨fun n hn => Nat.lt_succ_of_lt (hs.below n hn), Nat.lt_succ_self _⟩
  · rw [hpeers]
    apply hs.distinct.append (List.nodup_singleton _)
    rw [List.disjoint_singleton]
    exact fun hused => (hs.below _ hused).false
  · rcases List.mem_append.mp hq with hq | hq
    · exact .inl ⟨q, hq, .refl q⟩
    · rw [List.mem_singleton.mp hq]
      exact .inr ⟨Nat.le_refl _, rfl, rfl, rfl, rfl, rfl⟩

lemma foldl {α : Type} {f : SyncService → α → SyncService} (hf : ∀ s a, Grown s (f s a)) (as : List α) (s : SyncService) :
    Grown s (as.foldl f s) := by
  induction as generalizing s with
  | nil => exact .refl s
  | cons a as ih => exact (hf s a).trans (ih (f s a))

lemma modifyTarget (s : SyncService) (key : Name) (f : Target → Target) : Grown s (s.modifyTarget key f) :=
  of_sublist rfl rfl rfl (List.Sublist.refl _)

lemma dropPeer (ctx : SyncContext) (s : SyncService) (p : Peer) : Grown s (s.dropPeer ctx p) := by
  obtain ⟨u, htalked, hdrop⟩ := dropPeer_eq ctx s p
  have hremoved : Grown s (s.removePeer p.number) := of_sublist rfl rfl rfl List.filter_sublist
  have hspoken : Grown s u := hremoved.trans (.requested htalked)
  rw [hdrop]
  split_ifs
  · exact hspoken
  · exact hspoken.trans (.modifyTarget u _ _)

lemma dropWhere (ctx : SyncContext) (s : SyncService) (which : Peer → Bool) : Grown s (s.dropWhere ctx which) := by
  rw [SyncService.dropWhere]
  split
  · exact .refl s
  · exact .dropPeer ctx s _

lemma attempt (s : SyncService) (key : Name) : Grown s (s.attempt key) := by
  rcases attempt_cases s key with ⟨hsame, -⟩ | ⟨t, -, hattempt⟩
  · rw [hsame]
    exact .refl s
  · rw [hattempt]
    exact (modifyTarget s key _).trans (.attach _ _ _ _)

lemma connectTo (s : SyncService) (name host : Name) (port : ℕ) : Grown s (s.connectTo ctx name host port) := by
  have hset (key : Name) : Grown s (s.setTarget key name host port) := by
    rw [SyncService.setTarget]
    split
    · exact of_sublist rfl rfl rfl (List.Sublist.refl _)
    · exact .modifyTarget s _ _
  rw [SyncService.connectTo]
  dsimp only
  split_ifs
  · exact .refl s
  · exact .refl s
  · exact ((hset _).trans (.dropWhere ctx _ _)).trans (.attempt _ _)

lemma forget (s : SyncService) (key : Name) : Grown s (s.forget ctx key) := by
  have hforgot : Grown s { s with targets := s.targets.filter fun t => t.key ≠ key } :=
    of_sublist rfl rfl rfl (List.Sublist.refl _)
  exact hforgot.trans (.dropWhere ctx _ _)

lemma retryNow (s : SyncService) : Grown s s.retryNow := by
  apply Grown.foldl
  intro s key
  rw [retryTarget]
  split_ifs
  · exact .refl s
  · exact (modifyTarget s key _).trans (.attempt _ _)

lemma sendDocument {number : ℕ} {kind : Name} (document : Object) (hnumber : number ∈ s.verifiedNumbers) (hkind : kind ∈ words) :
    Grown s (s.sendDocument number kind document) := by
  apply Grown.talked
  apply talked_writeLine
  refine ⟨hnumber, ?_⟩
  rw [Object.string_put]
  exact hkind

lemma reevaluateAccess (s : SyncService) : Grown s (s.reevaluateAccess ctx) := by
  apply Grown.foldl
  intro s number
  rw [reevaluate]
  split
  · exact .refl s
  · rename_i p hp
    split_ifs with hsame
    · exact .refl s
    · exact .dropPeer ctx s p
    · have hset := Grown.modifyPeer s number (f := fun p => { p with access := accessOf ctx p p.name }) fun p =>
        ⟨rfl, rfl, rfl, rfl, rfl, [], List.forall_mem_nil _, (List.append_nil _).symm⟩
      have haccess : "access".toList ∈ words := by decide
      apply hset.trans
      apply Grown.sendDocument _ _ haccess
      have hverified : p.verified = true := by
        rw [not_or, Bool.not_eq_false] at hsame
        exact hsame.1
      obtain ⟨hmem, rfl⟩ := mem_of_peer hp
      exact mem_verifiedNumbers (p := { p with access := accessOf ctx p p.name }) (mem_modifyPeer hmem) hverified

lemma setLocalInfo (s : SyncService) (name role version : Name) : Grown s (s.setLocalInfo name role version) := by
  have hset : Grown s { s with name := name, role := role, version := version } :=
    of_sublist rfl rfl rfl (List.Sublist.refl _)
  unfold SyncService.setLocalInfo
  split_ifs
  · refine hset.trans ?_
    suffices h : ∀ (numbers : List ℕ) (t : SyncService), (∀ n ∈ numbers, n ∈ t.verifiedNumbers) →
        Grown t (numbers.foldl (fun t number => t.sendDocument number "hello".toList t.hello) t) from
      h _ _ fun n hn => hn
    intro numbers t hverified
    induction numbers generalizing t with
    | nil => exact .refl t
    | cons n numbers ih =>
      refine (sendDocument _ (hverified n List.mem_cons_self) (by decide)).trans (ih _ fun m hm => ?_)
      rw [(talked_sendDocument t n _ _).verifiedNumbers]
      exact hverified m (List.mem_cons_of_mem n hm)
  · exact hset

lemma answer (s : SyncService) (peerName : Name) (id : Json) (ack : Object) : Grown s (s.answer ctx peerName id ack) := by
  rw [SyncService.answer]
  split
  · exact .refl s
  · rename_i p hp
    exact sendDocument _ (peerNamed_verified hp) (by decide)

lemma stop (s : SyncService) : Grown s (s.stop ctx) := by
  have hforgot : Grown s { s with targets := [] } := of_sublist rfl rfl rfl (List.Sublist.refl _)
  have hfailed : Grown _ (failPending ctx { s with targets := [] } (fun _ => true) "the channel stopped".toList) :=
    .requested (talked_failPending _ _ _)
  apply (hforgot.trans hfailed).trans
  exact of_sublist rfl rfl rfl (List.nil_sublist _)

lemma start (s : SyncService) (ready listens : Bool) : Grown s (s.start ctx ready listens) := by
  have hstarted : Grown (s.stop ctx) (s.start ctx ready listens) := of_sublist rfl rfl rfl (List.Sublist.refl _)
  exact (stop s).trans hstarted

end Grown

/-- What is written comes after what was written before, and lines are read as they come. -/
structure Kept (s t : SyncService) : Prop where
  connections : s.connections ≤ t.connections
  numbered : Numbered s → Numbered t
  peers : Numbered s → ∀ q ∈ t.peers,
    (∃ p ∈ s.peers, q.number = p.number ∧ q.received = p.received ∧ p.sent <+: q.sent) ∨ s.connections ≤ q.number ∧ q.received = []

namespace Kept

lemma refl (s : SyncService) : Kept s s :=
  ⟨Nat.le_refl _, id, fun _ q hq => .inl ⟨q, hq, rfl, rfl, List.prefix_refl _⟩⟩

lemma trans (h : Kept s t) (h' : Kept t u) : Kept s u := by
  refine ⟨h.connections.trans h'.connections, fun hs => h'.numbered (h.numbered hs), fun hs r hr => ?_⟩
  rcases h'.peers (h.numbered hs) r hr with ⟨q, hq, hnumber, hreceived, hsent⟩ | ⟨hnew, hreceived⟩
  · rcases h.peers hs q hq with ⟨p, hp, hnumber', hreceived', hsent'⟩ | ⟨hnew, hnothing⟩
    · exact .inl ⟨p, hp, hnumber.trans hnumber', hreceived.trans hreceived', hsent'.trans hsent⟩
    · exact .inr ⟨hnumber ▸ hnew, hreceived.trans hnothing⟩
  · exact .inr ⟨h.connections.trans hnew, hreceived⟩

lemma of_grown (h : Grown s t) : Kept s t := by
  refine ⟨h.connections, h.numbered, fun hs q hq => ?_⟩
  rcases h.peers hs q hq with ⟨p, hp, hpq⟩ | ⟨hnew, hfresh⟩
  · obtain ⟨lines, -, hsent⟩ := hpq.sent
    exact .inl ⟨p, hp, hpq.number, hpq.received, hsent ▸ List.prefix_append _ _⟩
  · exact .inr ⟨hnew, hfresh.received⟩

lemma talked {ok : ℕ → Object → Prop} (h : Talked ok s t) : Kept s t := by
  refine ⟨h.connections.ge, fun hs => hs.talked h, fun _ q hq => .inl ?_⟩
  obtain ⟨p, hp, lines, -, rfl⟩ := h.exists_spoken hq
  exact ⟨p, hp, rfl, rfl, List.prefix_append _ _⟩

lemma modifyPeer (s : SyncService) (number : ℕ) {f : Peer → Peer} (hnumber : ∀ p, (f p).number = p.number)
    (hreceived : ∀ p, (f p).received = p.received) (hsent : ∀ p, (f p).sent = p.sent) : Kept s (s.modifyPeer number f) := by
  refine ⟨Nat.le_refl _, fun hs => hs.modifyPeer number hnumber, fun _ => ?_⟩
  rw [SyncService.modifyPeer, List.forall_mem_map]
  intro p hp
  refine .inl ⟨p, hp, ?_⟩
  split_ifs
  · exact ⟨hnumber p, hreceived p, hsent p ▸ List.prefix_refl _⟩
  · exact ⟨rfl, rfl, List.prefix_refl _⟩

lemma onEncrypted (s : SyncService) (p : Peer) (fingerprint : Name) : Kept s (s.onEncrypted ctx p fingerprint) := by
  rw [SyncService.onEncrypted]
  split_ifs
  · exact .of_grown (.dropPeer ctx s p)
  · have hset := Kept.modifyPeer s p.number (f := fun q => { q with fingerprint := fingerprint }) (fun _ => rfl)
      (fun _ => rfl) fun _ => rfl
    exact hset.trans (.talked (talked_sendDocument _ _ _ _))

lemma welcome (s : SyncService) (p : Peer) (o : Object) : Kept s (s.welcome ctx p o) := by
  have hset := Kept.modifyPeer s p.number (f := fun q => { q with access := accessOf ctx p p.name, protocol := o.int "protocol" 1 })
    (fun _ => rfl) (fun _ => rfl) fun _ => rfl
  have hreplaced := hset.trans (.of_grown (.dropWhere ctx _ fun q =>
    decide (q.number ≠ p.number) && q.verified && decide (q.name = p.name)))
  have hverified := hreplaced.trans (.modifyPeer _ p.number (f := fun q => { q with verified := true, helloTimer := false })
    (fun _ => rfl) (fun _ => rfl) fun _ => rfl)
  exact (hverified.trans (.talked (talked_sendDocument _ _ _ _))).trans (.talked (talked_sendAll _ _))

lemma greet (s : SyncService) (p : Peer) (o : Object) : Kept s (s.greet ctx p o) := by
  have hintroduced := Kept.modifyPeer s p.number (f := fun p => introduced p o) (fun _ => rfl) (fun _ => rfl) fun _ => rfl
  rw [SyncService.greet]
  split_ifs
  · exact hintroduced.trans (.of_grown (.dropPeer ctx _ _))
  · exact hintroduced.trans (.welcome _ _ _)

lemma handleKind (s : SyncService) (p : Peer) (kind : Name) (o : Object) : Kept s (s.handleKind ctx p kind o) := by
  rw [SyncService.handleKind]
  split_ifs
  · exact .modifyPeer s p.number (fun _ => rfl) (fun _ => rfl) fun _ => rfl
  · exact .greet s p o
  · exact .refl s
  · exact .modifyPeer s p.number (fun _ => rfl) (fun _ => rfl) fun _ => rfl
  · exact .talked (talked_finishPending _ _ _ s)
  · split
    · rw [handleRequest]
      split_ifs
      · exact .refl s
      · exact .talked (talked_sendDocument _ _ _ _)
    · exact .modifyPeer s p.number (fun _ => rfl) (fun _ => rfl) fun _ => rfl

end Kept

lemma kept_next {e : ChannelEvent} (h : s.next ctx e = some t) : Kept s t ∨
    ∃ p line, e = .line p.number line ∧ s.peer p.number = some p ∧ Kept (s.modifyPeer p.number (reads line)) t := by
  cases step_of_next h with
  | start ready listens => exact .inl (.of_grown (.start s ready listens))
  | stop => exact .inl (.of_grown (.stop s))
  | setLocalInfo name role version => exact .inl (.of_grown (.setLocalInfo s name role version))
  | setDocument kind document =>
    have hpeers : (s.setDocument kind document).peers = s.peers := by
      rw [setDocument]
      split_ifs <;> rfl
    have hconnections : (s.setDocument kind document).connections = s.connections := by
      rw [setDocument]
      split_ifs <;> rfl
    refine .inl ⟨hconnections.ge, fun hs => hs.sublist hconnections (by rw [hpeers]), fun _ q hq => ?_⟩
    exact .inl ⟨q, hpeers ▸ hq, rfl, rfl, List.prefix_refl _⟩
  | broadcastTimeout =>
    have hcleared : Kept s { s with dirty := [], broadcastTimer := false } :=
      ⟨Nat.le_refl _, fun hs => ⟨hs.below, hs.distinct⟩, fun _ q hq => .inl ⟨q, hq, rfl, rfl, List.prefix_refl _⟩⟩
    exact .inl (hcleared.trans (.talked (Talked.foldl (talked_publish s.dirty) _ _)))
  | request => exact .inl (.talked (talked_run _ s))
  | requestTimeout => exact .inl (.talked (talked_finish _ _ _ s))
  | answer peerName id ack => exact .inl (.of_grown (.answer s peerName id ack))
  | acceptIncoming => exact .inl (.of_grown (.attach s true [] []))
  | connectTo name host port => exact .inl (.of_grown (.connectTo s name host port))
  | forget key => exact .inl (.of_grown (.forget s key))
  | retryNow => exact .inl (.of_grown (.retryNow s))
  | retryTimeout key => exact .inl (.of_grown ((Grown.modifyTarget s key _).trans (.attempt _ key)))
  | reevaluateAccess => exact .inl (.of_grown (.reevaluateAccess s))
  | encrypted hp hfresh fingerprint => exact .inl (.onEncrypted s _ fingerprint)
  | line hp hencrypted line => exact .inr ⟨_, line, rfl, hp, .handleKind _ _ _ _⟩
  | helloTimeout hp => exact .inl (.of_grown (.dropPeer ctx s _))
  | disconnected hp => exact .inl (.of_grown (.dropPeer ctx s _))

end SyncService

end InputLeap.Gui
