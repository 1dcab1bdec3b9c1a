import InputLeap.Gui.SyncRetries

/-! Requests are answered once, by the peer that they went to or by a failure that is made here, as long as the peers
that go have the names that the requests were made under. -/

namespace InputLeap.Gui

open InputLeap.Lib
open scoped List

namespace SyncService

variable {ctx : SyncContext} {s t : SyncService} {p q : Peer} {e : Pending}

/-- Each request waits or was answered, once. What waits went to a connected peer and fails in time. -/
structure RequestsAnswered (ctx : SyncContext) (s : SyncService) : Prop where
  once : (s.pending.map Pending.number ++ s.answers.map Answer.number).Perm (List.range s.requests)
  senders : ∀ a ∈ s.answers, ∀ n, a.sender = some n → a.addressee = some n
  failures : ∀ a ∈ s.answers, a.sender = none → ∃ text, a.ack = failedAck text
  connected : ∀ e ∈ s.pending, ∃ p ∈ s.peers, p.verified = true ∧ p.number = e.addressee
  fails : ∀ e ∈ s.pending, ∃ t, s.next ctx (.requestTimeout e.number) = some t ∧
    ∃ ack, ⟨e.number, some e.addressee, none, ack⟩ ∈ t.answers

def Fails (ctx : SyncContext) (s : SyncService) : Script → Prop
  | .done => True
  | .request peerName kind _ handler next =>
    match s.addressee ctx peerName kind with
    | .error text => Fails ctx s (handler (failedAck text)) ∧ Fails ctx s next
    | .ok _ => False

def Named (s : SyncService) (p : Peer) : Prop := ∀ e ∈ s.pending, e.addressee = p.number → e.peerName = p.name

section Directed

variable (ctx : SyncContext) (s : SyncService)

def leads (key : Name) (p : Peer) : Bool := !p.incoming && decide (p.targetKey = key)

def replaces (p : Peer) (name : Name) (q : Peer) : Bool :=
  decide (q.number ≠ p.number) && q.verified && decide (q.name = name)

def droppedByLine (p : Peer) (kind : Name) (o : Object) : Option Peer :=
  if kind = "hello".toList ∧ p.verified = false then
    if refuses ctx (introduced p o) then some p else s.peers.find? (replaces p (o.string "name"))
  else none

def dropped : ChannelEvent → Option Peer
  | .connectTo name host port =>
    if host = [] ∨ port = 0 then none
    else
      let key := targetKeyOf name host port
      if (s.target key).any (fun t => decide (t.host = host ∧ t.port = port)) ∧ s.hasOutgoing key then none
      else s.peers.find? (leads key)
  | .forget key => s.peers.find? (leads key)
  | .encrypted number fingerprint => if fingerprint = [] then s.peer number else none
  | .line number line => (s.peer number).bind fun p => droppedByLine ctx s p (line.string "type") (line.remove "type")
  | .helloTimeout number => s.peer number
  | .disconnected number => s.peer number
  | _ => none

def Addressed (s : SyncService) : ChannelEvent → Prop
  | .line number line =>
    line.string "type" = "ack".toList →
      ∀ e ∈ s.pending, ctx.uuid e.number = (line.remove "type").string "id" → e.addressee = number
  | _ => True

/-- One peer after the other is dropped, and what is sent meanwhile is to the next ones. -/
def reevaluateNext (t : SyncService) (number : ℕ) : Option SyncService := some (reevaluate ctx t number)

def Directed : ChannelEvent → Prop
  | .start .. => ∀ e ∈ s.pending, Fails ctx s (e.handler (failedAck "the channel stopped".toList))
  | .stop => ∀ e ∈ s.pending, Fails ctx s (e.handler (failedAck "the channel stopped".toList))
  | .reevaluateAccess =>
    Along (reevaluateNext ctx) (fun t number => ∀ p ∈ t.peer number, accessOf ctx p p.name ≤ Access.none → Named t p)
      (s.peers.map Peer.number) s
  | e => Addressed ctx s e ∧ ∀ p ∈ dropped ctx s e, Named s p

end Directed

def Peer.channel (p : Peer) : ℕ × Bool := (p.number, p.verified)

def Linked (s : SyncService) (e : Pending) : Prop := (e.addressee, true) ∈ s.peers.map Peer.channel

structure Counted (s : SyncService) : Prop where
  once : (s.pending.map Pending.number ++ s.answers.map Answer.number).Perm (List.range s.requests)
  senders : ∀ a ∈ s.answers, ∀ n, a.sender = some n → a.addressee = some n
  failures : ∀ a ∈ s.answers, a.sender = none → ∃ text, a.ack = failedAck text

structure RequestInv (s : SyncService) : Prop extends Counted s where
  linked : ∀ e ∈ s.pending, Linked s e
  below : ∀ c ∈ s.peers.map Peer.channel, c.1 < s.connections
  distinct : (s.peers.map Peer.channel).Pairwise fun c d => c.1 ≠ d.1

section Runs

lemma channel_sent (p : Peer) (lines : List Object) : Peer.channel { p with sent := lines } = p.channel := rfl

lemma Counted.failAtOnce (h : Counted s) (text : Name) : Counted (s.failAtOnce text) := by
  constructor
  · rw [SyncService.failAtOnce, List.map_append, ← List.append_assoc, List.range_succ]
    exact h.once.append_right _
  · rw [SyncService.failAtOnce, List.forall_mem_append, List.forall_mem_singleton]
    exact ⟨h.senders, by simp⟩
  · rw [SyncService.failAtOnce, List.forall_mem_append, List.forall_mem_singleton]
    exact ⟨h.failures, fun _ => ⟨text, rfl⟩⟩

lemma Counted.sendRequest (h : Counted s) (p : Peer) (peerName : Name) (kind : RequestKind) (body : Object)
    (handler : AckHandler) : Counted (s.sendRequest ctx p peerName kind body handler) := by
  refine ⟨?_, h.senders, h.failures⟩
  rw [SyncService.sendRequest, List.map_append, List.range_succ]
  have hmoved : ((s.pending.map Pending.number ++ [s.requests]) ++ s.answers.map Answer.number).Perm
      ((s.pending.map Pending.number ++ s.answers.map Answer.number) ++ [s.requests]) := by
    rw [List.append_assoc, List.append_assoc]
    exact List.perm_append_comm.append_left _
  exact hmoved.trans (h.once.append_right _)

lemma Counted.run (h : Counted s) (script : Script) : Counted (SyncService.run ctx script s) := by
  induction script generalizing s with
  | done => exact h
  | request peerName kind body handler next ih ihnext =>
    rw [SyncService.run]
    split
    · exact ihnext (ih _ (h.failAtOnce _))
    · exact ihnext (h.sendRequest _ _ _ _ _)

lemma Counted.nodup (h : Counted s) : (s.pending.map Pending.number).Nodup :=
  (List.nodup_append.mp (h.once.nodup_iff.mpr List.nodup_range)).1

lemma Counted.finish (h : Counted s) (he : e ∈ s.pending) {ack : Object} {sender : Option ℕ}
    (hsender : ∀ n, sender = some n → e.addressee = n) (hack : sender = none → ∃ text, ack = failedAck text) : Counted (s.finish ctx e ack sender) := by
  apply Counted.run
  constructor
  · have herase := List.perm_cons_erase (List.mem_map_of_mem (f := Pending.number) he)
    have hrest : (s.pending.map Pending.number).erase e.number =
        (s.pending.filter fun d => d.number ≠ e.number).map Pending.number := by
      rw [h.nodup.erase_eq_filter, List.filter_map]
      congr 2
      funext d
      by_cases hd : d.number = e.number
      · simp [hd]
      · simp [hd]
    rw [hrest] at herase
    rw [List.map_append]
    calc
      _ = ((s.pending.filter fun d => d.number ≠ e.number).map Pending.number ++ s.answers.map Answer.number) ++
          [e.number] := (List.append_assoc _ _ _).symm
      _ ~ e.number :: ((s.pending.filter fun d => d.number ≠ e.number).map Pending.number ++
          s.answers.map Answer.number) := List.perm_append_comm
      _ ~ s.pending.map Pending.number ++ s.answers.map Answer.number := (herase.append_right _).symm
      _ ~ List.range s.requests := h.once
  · rw [List.forall_mem_append, List.forall_mem_singleton]
    refine ⟨h.senders, fun n hn => ?_⟩
    rw [hsender n hn]
  · rw [List.forall_mem_append, List.forall_mem_singleton]
    exact ⟨h.failures, hack⟩

lemma Linked.congr (h : t.peers.map Peer.channel = s.peers.map Peer.channel) : Linked t e ↔ Linked s e := by
  rw [Linked, Linked, h]

lemma Linked.talked {ok : ℕ → Object → Prop} (h : Talked ok s t) : Linked t e ↔ Linked s e :=
  Linked.congr (h.map_peers _ channel_sent)

lemma linked_iff : Linked s e ↔ ∃ p ∈ s.peers, p.verified = true ∧ p.number = e.addressee := by
  constructor
  · intro h
    obtain ⟨p, hp, hchannel⟩ := List.mem_map.mp h
    exact ⟨p, hp, congrArg Prod.snd hchannel, congrArg Prod.fst hchannel⟩
  · rintro ⟨p, hp, hverified, hnumber⟩
    exact List.mem_map.mpr ⟨p, hp, Prod.ext hnumber hverified⟩

lemma addressee_cases {peerName : Name} {kind : RequestKind} (h : s.addressee ctx peerName kind = .ok p) :
    p ∈ s.peers ∧ p.verified = true := by
  rw [addressee] at h
  split at h
  · cases h
  · rename_i q hq
    have hfound : q ∈ s.peers ∧ q.verified = true := by
      rw [peerNamed] at hq
      have hnamed := List.find?_some hq
      exact ⟨List.mem_of_find?_eq_some hq, (Bool.and_eq_true_iff.mp hnamed).1⟩
    split_ifs at h
    obtain rfl := Except.ok.inj h
    exact hfound

lemma pending_run (script : Script) {s : SyncService} (h : e ∈ (run ctx script s).pending) : e ∈ s.pending ∨ Linked s e := by
  induction script generalizing s with
  | done => exact .inl h
  | request peerName kind body handler next ih ihnext =>
    rw [run] at h
    split at h
    · rename_i text _
      have hfailed : Talked (IsRequest s) s (run ctx (handler (failedAck text)) (s.failAtOnce text)) :=
        (talked_failAtOnce s text).andThen (talked_run _ _)
      rcases ihnext h with hbefore | hlinked
      · exact ih _ (s := s.failAtOnce text) hbefore
      · exact .inr ((Linked.talked hfailed).mp hlinked)
    · rename_i p hp
      have hsent : Linked (s.sendRequest ctx p peerName kind body handler) e ↔ Linked s e :=
        Linked.congr (map_sendDocument channel_sent s _ _ _)
      rcases ihnext h with hbefore | hlinked
      · rcases List.mem_append.mp hbefore with hbefore | hnew
        · exact .inl hbefore
        · obtain ⟨hmem, hverified⟩ := addressee_cases hp
          rw [List.mem_singleton.mp hnew]
          exact .inr (linked_iff.mpr ⟨p, hmem, hverified, rfl⟩)
      · exact .inr (hsent.mp hlinked)

lemma pending_finish {d : Pending} {ack : Object} {sender : Option ℕ} (h : e ∈ (s.finish ctx d ack sender).pending) :
    e ∈ s.pending ∧ e.number ≠ d.number ∨ Linked s e := by
  rcases pending_run _ h with hbefore | hlinked
  · exact .inl (by simpa using hbefore)
  · exact .inr hlinked

lemma Counted.failOne (h : Counted s) (which : Pending → Bool) (text : Name) (number : ℕ) :
    Counted (SyncService.failOne ctx which text s number) := by
  rw [SyncService.failOne]
  split
  · exact h
  · rename_i e he
    split_ifs
    · exact h.finish (List.mem_of_find?_eq_some he) (by simp) fun _ => ⟨text, rfl⟩
    · exact h

lemma pending_failOne (hs : Counted s) {which : Pending → Bool} {text : Name} {number : ℕ}
    (h : e ∈ (failOne ctx which text s number).pending) :
    e ∈ s.pending ∧ (e.number = number → which e = false) ∨ Linked s e := by
  rw [failOne] at h
  split at h
  · rename_i hnone
    exact .inl ⟨h, fun hnumber => absurd (decide_eq_true hnumber) (List.find?_eq_none.mp hnone e h)⟩
  · rename_i d hd
    have hnumber : d.number = number := by simpa using List.find?_some hd
    split_ifs at h with hwhich
    · rcases pending_finish h with ⟨hbefore, hne⟩ | hlinked
      · exact .inl ⟨hbefore, fun heq => absurd (heq.trans hnumber.symm) hne⟩
      · exact .inr hlinked
    · refine .inl ⟨h, fun heq => ?_⟩
      obtain rfl := List.inj_on_of_nodup_map hs.nodup h (List.mem_of_find?_eq_some hd) (heq.trans hnumber.symm)
      simpa using hwhich

lemma Counted.failPending (h : Counted s) (which : Pending → Bool) (text : Name) :
    Counted (s.failPending ctx which text) := by
  rw [SyncService.failPending]
  generalize s.pending.map Pending.number = ns
  induction ns generalizing s with
  | nil => exact h
  | cons n ns ih => exact ih (h.failOne which text n)

lemma pending_failPending (hs : Counted s) {which : Pending → Bool} {text : Name}
    (h : e ∈ (s.failPending ctx which text).pending) : e ∈ s.pending ∧ which e = false ∨ Linked s e := by
  have hfold (ns : List ℕ) : ∀ s : SyncService, Counted s → e ∈ (ns.foldl (failOne ctx which text) s).pending →
      e ∈ s.pending ∧ (e.number ∈ ns → which e = false) ∨ Linked s e := by
    induction ns with
    | nil => exact fun s _ h => .inl ⟨h, by simp⟩
    | cons n ns ih =>
      intro s hs h
      rcases ih _ (hs.failOne which text n) h with ⟨hbefore, hspared⟩ | hlinked
      · rcases pending_failOne hs hbefore with ⟨hfirst, hspared'⟩ | hlinked
        · exact .inl ⟨hfirst, fun hn => (List.mem_cons.mp hn).elim hspared' hspared⟩
        · exact .inr hlinked
      · exact .inr ((Linked.talked (talked_failOne which text s n)).mp hlinked)
  rcases hfold _ s hs h with ⟨hbefore, hspared⟩ | hlinked
  · exact .inl ⟨hbefore, hspared (List.mem_map_of_mem hbefore)⟩
  · exact .inr hlinked

lemma addressee_congr (h : t.peers = s.peers) (peerName : Name) (kind : RequestKind) :
    t.addressee ctx peerName kind = s.addressee ctx peerName kind := by
  rw [addressee, addressee, peerNamed, peerNamed, h]

lemma run_fails {script : Script} (hfails : Fails ctx s script) {t : SyncService} (h : t.peers = s.peers) :
    (run ctx script t).peers = s.peers ∧ (run ctx script t).pending = t.pending := by
  induction script generalizing t with
  | done => exact ⟨h, rfl⟩
  | request peerName kind body handler next ih ihnext =>
    rw [Fails] at hfails
    rw [run, addressee_congr h]
    cases haddressee : s.addressee ctx peerName kind with
    | error text =>
      rw [haddressee] at hfails
      obtain ⟨hhandler, hnext⟩ := hfails
      obtain ⟨hpeers, hpending⟩ := ih _ hhandler (t := t.failAtOnce text) h
      obtain ⟨hpeers', hpending'⟩ := ihnext hnext hpeers
      exact ⟨hpeers', hpending'.trans hpending⟩
    | ok p =>
      rw [haddressee] at hfails
      exact hfails.elim

lemma failPending_all {text : Name} (hpeers : t.peers = s.peers)
    (hfails : ∀ e ∈ t.pending, Fails ctx s (e.handler (failedAck text))) :
    (t.failPending ctx (fun _ => true) text).pending = [] := by
  have hfold (ns : List ℕ) : ∀ u : SyncService, u.peers = s.peers → u.pending ⊆ t.pending →
      (∀ e ∈ u.pending, e.number ∈ ns) → (ns.foldl (failOne ctx (fun _ => true) text) u).pending = [] := by
    induction ns with
    | nil => exact fun u _ _ hnone => List.eq_nil_iff_forall_not_mem.mpr fun e he => by simpa using hnone e he
    | cons n ns ih =>
      intro u hpeers hpending hlisted
      rw [List.foldl_cons, failOne]
      split
      · rename_i hnone
        refine ih u hpeers hpending fun e he => ?_
        refine (List.mem_cons.mp (hlisted e he)).resolve_left fun hnumber => ?_
        exact List.find?_eq_none.mp hnone e he (decide_eq_true hnumber)
      · rename_i d hd
        have hnumber : d.number = n := by simpa using List.find?_some hd
        obtain ⟨hpeers', hpending'⟩ := run_fails (hfails d (hpending (List.mem_of_find?_eq_some hd)))
          (t := { u with
            pending := u.pending.filter fun e => e.number ≠ d.number
            answers := u.answers ++ [⟨d.number, some d.addressee, none, failedAck text⟩] }) hpeers
        rw [if_pos rfl, finish]
        apply ih _ hpeers'
        · rw [hpending']
          exact fun e he => hpending (List.mem_of_mem_filter he)
        · rw [hpending']
          intro e he
          obtain ⟨he, hne⟩ := List.mem_filter.mp he
          refine (List.mem_cons.mp (hlisted e he)).resolve_left fun heq => ?_
          exact of_decide_eq_true hne (heq.trans hnumber.symm)
  exact hfold _ t hpeers (List.Subset.refl _) fun e he => List.mem_map_of_mem he

end Runs

section Steps

lemma RequestInv.congr (h : RequestInv s) (hpending : t.pending = s.pending) (hanswers : t.answers = s.answers)
    (hrequests : t.requests = s.requests) (hpeers : t.peers.map Peer.channel = s.peers.map Peer.channel)
    (hconnections : t.connections = s.connections) : RequestInv t := by
  refine ⟨⟨?_, ?_, ?_⟩, ?_, ?_, ?_⟩
  · rw [hpending, hanswers, hrequests]
    exact h.once
  · rw [hanswers]
    exact h.senders
  · rw [hanswers]
    exact h.failures
  · rw [hpending]
    exact fun e he => (Linked.congr hpeers).mpr (h.linked e he)
  · rw [hpeers, hconnections]
    exact h.below
  · rw [hpeers]
    exact h.distinct

lemma RequestInv.talked {ok : ℕ → Object → Prop} (h : RequestInv s) (htalked : Talked ok s t) (hcounted : Counted t)
    (hlinked : ∀ e ∈ t.pending, Linked s e) : RequestInv t := by
  have hpeers := htalked.map_peers _ channel_sent
  refine ⟨hcounted, fun e he => (Linked.talked htalked).mpr (hlinked e he), ?_, ?_⟩
  · rw [hpeers, htalked.connections]
    exact h.below
  · rw [hpeers]
    exact h.distinct

lemma RequestInv.sendDocument (h : RequestInv s) (number : ℕ) (kind : Name) (document : Object) :
    RequestInv (s.sendDocument number kind document) := h.congr rfl rfl rfl (map_sendDocument channel_sent s _ _ _) rfl

lemma RequestInv.modifyPeer (h : RequestInv s) (number : ℕ) {f : Peer → Peer} (hf : ∀ p, (f p).channel = p.channel) :
    RequestInv (s.modifyPeer number f) := h.congr rfl rfl rfl (map_modifyPeer s number hf) rfl

lemma RequestInv.foldl {α : Type} {f : SyncService → α → SyncService} (hf : ∀ s a, RequestInv s → RequestInv (f s a))
    (as : List α) {s : SyncService} (h : RequestInv s) : RequestInv (as.foldl f s) := by
  induction as generalizing s with
  | nil => exact h
  | cons a as ih => exact ih (hf s a h)

lemma RequestInv.run (h : RequestInv s) (script : Script) : RequestInv (SyncService.run ctx script s) := by
  apply h.talked (talked_run script s) (h.toCounted.run script)
  exact fun e he => (pending_run script he).elim (h.linked e) id

lemma RequestInv.finish (h : RequestInv s) (he : e ∈ s.pending) {ack : Object} {sender : Option ℕ}
    (hsender : ∀ n, sender = some n → e.addressee = n) (hack : sender = none → ∃ text, ack = failedAck text) :
    RequestInv (s.finish ctx e ack sender) := by
  apply h.talked (talked_finish e ack sender s) (h.toCounted.finish he hsender hack)
  exact fun d hd => (pending_finish hd).elim (fun hbefore => h.linked d hbefore.1) id

lemma RequestInv.unique (h : RequestInv s) (hp : p ∈ s.peers) (hq : q ∈ s.peers) (hnumber : q.number = p.number) :
    q = p := by
  have hdistinct := List.pairwise_map.mp h.distinct
  have hnodup : (s.peers.map Peer.number).Nodup := List.pairwise_map.mpr hdistinct
  exact List.inj_on_of_nodup_map hnodup hq hp hnumber

lemma RequestInv.dropPeer (h : RequestInv s) (hp : p ∈ s.peers) (hnamed : p.verified = true → Named s p) :
    RequestInv (s.dropPeer ctx p) := by
  have hothers (e : Pending) (he : e ∈ s.pending) (hne : e.addressee ≠ p.number) : Linked (s.removePeer p.number) e := by
    obtain ⟨q, hq, hverified, hnumber⟩ := linked_iff.mp (h.linked e he)
    refine linked_iff.mpr ⟨q, List.mem_filter.mpr ⟨hq, decide_eq_true ?_⟩, hverified, hnumber⟩
    rwa [hnumber]
  have hpeers : (s.removePeer p.number).peers.map Peer.channel =
      (s.peers.map Peer.channel).filter fun c => decide (c.1 ≠ p.number) := by
    rw [List.filter_map]
    rfl
  have hremoved (t : SyncService) (ht : Talked (IsRequest (s.removePeer p.number)) (s.removePeer p.number) t) (hcounted : Counted t)
      (hlinked : ∀ e ∈ t.pending, Linked (s.removePeer p.number) e) : RequestInv t := by
    refine ⟨hcounted, fun e he => (Linked.talked ht).mpr (hlinked e he), ?_, ?_⟩
    · rw [ht.map_peers _ channel_sent, hpeers, ht.connections]
      exact fun c hc => h.below c (List.mem_of_mem_filter hc)
    · rw [ht.map_peers _ channel_sent, hpeers]
      exact h.distinct.filter _
  have hfailed : RequestInv (if p.verified then
      (s.removePeer p.number).failPending ctx (fun e => decide (e.peerName = p.name))
        (p.name ++ " went away before answering".toList)
      else s.removePeer p.number) := by
    have hcounted : Counted (s.removePeer p.number) := ⟨h.once, h.senders, h.failures⟩
    split_ifs with hverified
    · apply hremoved _ (talked_failPending _ _ _) (hcounted.failPending _ _)
      intro e he
      rcases pending_failPending hcounted he with ⟨hbefore, hspared⟩ | hlinked
      · apply hothers e hbefore
        intro hnumber
        exact of_decide_eq_false hspared (hnamed hverified e hbefore hnumber)
      · exact hlinked
    · apply hremoved _ (.refl _) hcounted
      -- nothing waits for a peer that never said hello
      refine fun e he => hothers e he fun hnumber => ?_
      obtain ⟨q, hq, hverified', hsame⟩ := linked_iff.mp (h.linked e he)
      obtain rfl := h.unique hp hq (hsame.trans hnumber)
      exact hverified hverified'
  rw [SyncService.dropPeer]
  split_ifs at hfailed ⊢
  · exact hfailed
  · exact hfailed
  · exact hfailed.congr rfl rfl rfl rfl rfl
  · exact hfailed.congr rfl rfl rfl rfl rfl

lemma RequestInv.dropWhere (h : RequestInv s) {which : Peer → Bool} (hnamed : ∀ p ∈ s.peers.find? which, Named s p) :
    RequestInv (s.dropWhere ctx which) := by
  rw [SyncService.dropWhere]
  split
  · exact h
  · rename_i p hp
    exact h.dropPeer (List.mem_of_find?_eq_some hp) fun _ => hnamed p hp

lemma RequestInv.attach (h : RequestInv s) (incoming : Bool) (targetKey targetName : Name) :
    RequestInv (s.attach incoming targetKey targetName) := by
  have hpeers : (s.attach incoming targetKey targetName).peers.map Peer.channel =
      s.peers.map Peer.channel ++ [(s.connections, false)] := List.map_append
  refine ⟨⟨h.once, h.senders, h.failures⟩, fun e he => ?_, ?_, ?_⟩
  · rw [Linked, hpeers]
    exact List.mem_append_left _ (h.linked e he)
  · rw [hpeers, List.forall_mem_append, List.forall_mem_singleton]
    exact ⟨fun c hc => Nat.lt_succ_of_lt (h.below c hc), Nat.lt_succ_self _⟩
  · rw [hpeers]
    apply List.pairwise_append.mpr
    refine ⟨h.distinct, List.pairwise_singleton _ _, fun c hc d hd => ?_⟩
    rw [List.mem_singleton.mp hd]
    exact (h.below c hc).ne

lemma RequestInv.modifyTarget (h : RequestInv s) (key : Name) (f : Target → Target) : RequestInv (s.modifyTarget key f) :=
  h.congr rfl rfl rfl rfl rfl

lemma RequestInv.attempt (h : RequestInv s) (key : Name) : RequestInv (s.attempt key) := by
  rcases attempt_cases s key with ⟨hsame, -⟩ | ⟨t, -, hattempt⟩
  · rwa [hsame]
  · rw [hattempt]
    exact (h.modifyTarget key _).attach _ _ _

lemma setTarget_eq (s : SyncService) (key name host : Name) (port : ℕ) :
    ∃ targets, s.setTarget key name host port = { s with targets := targets } := by
  rw [setTarget]
  split
  · exact ⟨_, rfl⟩
  · exact ⟨_, rfl⟩

lemma RequestInv.connectTo (h : RequestInv s) (name host : Name) (port : ℕ)
    (hnamed : ∀ p ∈ dropped ctx s (.connectTo name host port), Named s p) :
    RequestInv (s.connectTo ctx name host port) := by
  rw [dropped] at hnamed
  unfold SyncService.connectTo
  split_ifs at hnamed ⊢
  · exact h
  · dsimp only at hnamed ⊢
    split_ifs at hnamed ⊢
    · exact h
    · obtain ⟨targets, hset⟩ := setTarget_eq s (targetKeyOf name host port) name host port
      rw [hset]
      apply RequestInv.attempt
      have hrest : RequestInv { s with targets := targets } := h.congr rfl rfl rfl rfl rfl
      exact hrest.dropWhere hnamed

lemma RequestInv.forget (h : RequestInv s) (key : Name) (hnamed : ∀ p ∈ dropped ctx s (.forget key), Named s p) :
    RequestInv (s.forget ctx key) := by
  have hrest : RequestInv { s with targets := s.targets.filter fun t => t.key ≠ key } := h.congr rfl rfl rfl rfl rfl
  exact hrest.dropWhere hnamed

lemma RequestInv.retryNow (h : RequestInv s) : RequestInv s.retryNow := by
  apply RequestInv.foldl _ _ h
  intro s key h
  rw [retryTarget]
  split_ifs
  · exact h
  · exact (h.modifyTarget key _).attempt key

lemma RequestInv.broadcast (h : RequestInv s) : RequestInv s.broadcast := by
  have hcleared : RequestInv { s with dirty := [], broadcastTimer := false } := h.congr rfl rfl rfl rfl rfl
  apply RequestInv.foldl _ _ hcleared
  intro t number ht
  apply RequestInv.foldl _ _ ht
  intro t kind ht
  exact ht.sendDocument number kind _

lemma RequestInv.setLocalInfo (h : RequestInv s) (name role version : Name) :
    RequestInv (s.setLocalInfo name role version) := by
  have hset : RequestInv { s with name := name, role := role, version := version } := h.congr rfl rfl rfl rfl rfl
  unfold SyncService.setLocalInfo
  split_ifs
  · apply RequestInv.foldl _ _ hset
    intro t number ht
    exact ht.sendDocument number _ _
  · exact hset

lemma RequestInv.reevaluate (h : RequestInv s) {number : ℕ}
    (hnamed : ∀ p ∈ s.peer number, accessOf ctx p p.name ≤ Access.none → Named s p) :
    RequestInv (SyncService.reevaluate ctx s number) := by
  rw [SyncService.reevaluate]
  split
  · exact h
  · rename_i p hp
    split_ifs with hquiet hnone
    · exact h
    · exact h.dropPeer (mem_of_peer hp).1 fun _ => hnamed p hp hnone
    · have hset := h.modifyPeer number (f := fun p => { p with access := accessOf ctx p p.name }) fun p => rfl
      exact hset.sendDocument _ _ _

lemma RequestInv.reevaluateAccess (h : RequestInv s) (hok : Directed ctx s .reevaluateAccess) :
    RequestInv (s.reevaluateAccess ctx) := by
  rw [Directed] at hok
  rw [SyncService.reevaluateAccess]
  generalize s.peers.map Peer.number = ns at hok
  induction ns generalizing s with
  | nil => exact h
  | cons n ns ih => exact ih (h.reevaluate hok.1) (hok.2 _ rfl)

lemma RequestInv.stop (h : RequestInv s) (hfails : ∀ e ∈ s.pending, Fails ctx s (e.handler (failedAck "the channel stopped".toList))) :
    RequestInv (s.stop ctx) := by
  have hcounted : Counted { s with targets := [] } := ⟨h.once, h.senders, h.failures⟩
  have hfailed : Counted (SyncService.failPending ctx { s with targets := [] } (fun _ => true) "the channel stopped".toList) :=
    hcounted.failPending _ _
  have hnone : (s.stop ctx).pending = [] := failPending_all (s := s) (t := { s with targets := [] }) rfl hfails
  refine ⟨⟨hfailed.once, hfailed.senders, hfailed.failures⟩, ?_, List.forall_mem_nil _, List.Pairwise.nil⟩
  rw [hnone]
  exact List.forall_mem_nil _

end Steps

section Lines

lemma find?_replaces {f : Peer → Peer} (s : SyncService) (p : Peer) (name : Name) (hf : ∀ q, (f q).number = q.number) :
    (s.modifyPeer p.number f).peers.find? (replaces p name) = s.peers.find? (replaces p name) := by
  have hself (q : Peer) (hnumber : q.number = p.number) : ¬replaces p name q = true := by
    rw [replaces, decide_eq_false (not_not_intro hnumber), Bool.false_and, Bool.false_and]
    exact Bool.false_ne_true
  rw [modifyPeer]
  induction s.peers with
  | nil => rfl
  | cons q qs ih =>
    rw [List.map_cons]
    split_ifs with hnumber
    · rw [List.find?_cons_of_neg (hself (f q) ((hf q).trans hnumber)), List.find?_cons_of_neg (hself q hnumber)]
      exact ih
    · rw [List.find?_cons, List.find?_cons, ih]

lemma RequestInv.verify (h : RequestInv s) (number : ℕ) :
    RequestInv (s.modifyPeer number fun p => { p with verified := true, helloTimer := false }) := by
  have hpeers : (s.modifyPeer number fun p => { p with verified := true, helloTimer := false }).peers.map Peer.channel =
      (s.peers.map Peer.channel).map fun c => (c.1, decide (c.1 = number) || c.2) := by
    rw [SyncService.modifyPeer, List.map_map, List.map_map]
    apply List.map_congr_left
    intro p _
    by_cases hnumber : p.number = number
    · simp [Peer.channel, hnumber]
    · simp [Peer.channel, hnumber]
  refine ⟨⟨h.once, h.senders, h.failures⟩, fun e he => ?_, ?_, ?_⟩
  · rw [Linked, hpeers]
    exact List.mem_map.mpr ⟨_, h.linked e he, by simp⟩
  · rw [hpeers, List.forall_mem_map]
    exact h.below
  · rw [hpeers]
    exact List.pairwise_map.mpr h.distinct

lemma RequestInv.sendAll (h : RequestInv s) (number : ℕ) : RequestInv (s.sendAll number) := by
  apply RequestInv.foldl _ _ h
  intro t e ht
  exact ht.sendDocument number e.1 e.2

lemma RequestInv.welcome (h : RequestInv s) (o : Object) (hnamed : ∀ q ∈ s.peers.find? (replaces p p.name), Named s q) :
    RequestInv (s.welcome ctx p o) := by
  let s₁ := s.modifyPeer p.number fun q => { q with access := accessOf ctx p p.name, protocol := o.int "protocol" 1 }
  have hset : RequestInv s₁ := h.modifyPeer p.number fun q => rfl
  have hreplaced : RequestInv (s₁.dropWhere ctx (replaces p p.name)) := by
    apply hset.dropWhere
    rw [find?_replaces]
    · exact hnamed
    · exact fun q => rfl
  exact ((hreplaced.verify p.number).sendDocument _ _ _).sendAll _

lemma RequestInv.greet (h : RequestInv s) (hp : p ∈ s.peers) (hfresh : p.verified = false) (o : Object)
    (hnamed : refuses ctx (introduced p o) = false → ∀ q ∈ s.peers.find? (replaces p (o.string "name")), Named s q) :
    RequestInv (s.greet ctx p o) := by
  have hintroduced := h.modifyPeer p.number (f := fun p => introduced p o) fun q => rfl
  rw [SyncService.greet]
  split_ifs with hrefuses
  · apply hintroduced.dropPeer (mem_modifyPeer hp)
    intro hverified
    exact absurd (hverified.symm.trans hfresh) (by simp)
  · apply hintroduced.welcome
    have hsame := find?_replaces (f := fun p => introduced p o) s p (o.string "name") fun q => rfl
    exact hsame ▸ hnamed (by simpa using hrefuses)

lemma RequestInv.handleKind (h : RequestInv s) (hp : p ∈ s.peers) (kind : Name) (o : Object)
    (hnamed : kind = "hello".toList → p.verified = false → refuses ctx (introduced p o) = false →
      ∀ q ∈ s.peers.find? (replaces p (o.string "name")), Named s q)
    (haddressed : kind = "ack".toList → ∀ e ∈ s.pending, ctx.uuid e.number = o.string "id" → e.addressee = p.number) :
    RequestInv (s.handleKind ctx p kind o) := by
  rw [SyncService.handleKind]
  split_ifs with hhello hverified hquiet haccess hack
  · exact h.modifyPeer p.number fun q => rfl
  · have hfresh : p.verified = false := by simpa using hverified
    exact h.greet hp hfresh o (hnamed hhello hfresh)
  · exact h
  · exact h.modifyPeer p.number fun q => rfl
  · rw [finishPending]
    split
    · exact h
    · rename_i e he
      have hmem := List.mem_of_find?_eq_some he
      have hid : ctx.uuid e.number = o.string "id" := by simpa using List.find?_some he
      apply h.finish hmem
      · intro n hn
        exact (haddressed hack e hmem hid).trans (Option.some.inj hn)
      · exact fun hnone => absurd hnone (by simp)
  · split
    · rw [handleRequest]
      split_ifs
      · exact h
      · exact h.sendDocument _ _ _
    · exact h.modifyPeer p.number fun q => rfl

lemma RequestInv.handleLine (h : RequestInv s) (hp : p ∈ s.peers) (line : Object)
    (hnamed : ∀ q ∈ droppedByLine ctx s p (line.string "type") (line.remove "type"), Named s q)
    (haddressed : line.string "type" = "ack".toList →
      ∀ e ∈ s.pending, ctx.uuid e.number = (line.remove "type").string "id" → e.addressee = p.number) :
    RequestInv (s.handleLine ctx p line) := by
  have hread := h.modifyPeer p.number (f := reads line) fun q => rfl
  apply hread.handleKind (mem_modifyPeer hp) _ _ _ haddressed
  intro hhello hfresh hrefuses
  have hfresh : p.verified = false := hfresh
  have hrefuses : refuses ctx (introduced p (line.remove "type")) = false := hrefuses
  have hsame := find?_replaces (f := reads line) s p ((line.remove "type").string "name") fun q => rfl
  rw [droppedByLine, if_pos ⟨hhello, hfresh⟩, hrefuses] at hnamed
  exact hsame ▸ hnamed

lemma RequestInv.onEncrypted (h : RequestInv s) (hp : p ∈ s.peers) (fingerprint : Name)
    (hnamed : fingerprint = [] → Named s p) : RequestInv (s.onEncrypted ctx p fingerprint) := by
  rw [SyncService.onEncrypted]
  split_ifs with hnone
  · exact h.dropPeer hp fun _ => hnamed hnone
  · have hset := h.modifyPeer p.number (f := fun p => { p with fingerprint := fingerprint }) fun p => rfl
    exact hset.sendDocument _ _ _

end Lines

lemma RequestInv.next {event : ChannelEvent} (h : RequestInv s) (hok : Directed ctx s event)
    (hnext : s.next ctx event = some t) : RequestInv t := by
  cases step_of_next hnext with
  | start => exact (h.stop hok).congr rfl rfl rfl rfl rfl
  | stop => exact h.stop hok
  | setLocalInfo name role version => exact h.setLocalInfo name role version
  | setDocument kind document =>
    rw [SyncService.setDocument]
    split
    · exact h
    · exact h.congr rfl rfl rfl rfl rfl
  | broadcastTimeout => exact h.broadcast
  | request => exact h.run _
  | requestTimeout e he => exact h.finish he (by simp) fun _ => ⟨_, rfl⟩
  | answer =>
    rw [SyncService.answer]
    split
    · exact h
    · exact h.sendDocument _ _ _
  | acceptIncoming => exact h.attach _ _ _
  | connectTo name host port => exact h.connectTo name host port hok.2
  | forget key => exact h.forget key hok.2
  | retryNow => exact h.retryNow
  | retryTimeout key => exact (h.modifyTarget key _).attempt key
  | reevaluateAccess => exact h.reevaluateAccess hok
  | encrypted hp _ fingerprint =>
    apply h.onEncrypted (mem_of_peer hp).1
    intro hnone
    apply hok.2
    rw [dropped, if_pos hnone]
    exact hp
  | line hp _ line =>
    apply h.handleLine (mem_of_peer hp).1 line _ hok.1
    have hnamed := hok.2
    rwa [dropped, hp, Option.bind_some] at hnamed
  | helloTimeout hp | disconnected hp => exact h.dropPeer (mem_of_peer hp).1 fun _ => hok.2 _ hp

lemma answers_run (script : Script) (s : SyncService) : s.answers ⊆ (run ctx script s).answers := by
  induction script generalizing s with
  | done => exact List.Subset.refl _
  | request peerName kind body handler next ih ihnext =>
    rw [run]
    split
    · apply List.Subset.trans (List.subset_append_left _ _)
      exact List.Subset.trans (ih _ (s.failAtOnce _)) (ihnext _)
    · rename_i p _
      exact ihnext (s.sendRequest ctx p peerName kind body handler)

lemma RequestInv.requestsAnswered (h : RequestInv s) : RequestsAnswered ctx s := by
  refine ⟨h.once, h.senders, h.failures, fun e he => linked_iff.mp (h.linked e he), fun e he => ?_⟩
  obtain ⟨d, hd⟩ : ∃ d, s.pending.find? (fun d => decide (d.number = e.number)) = some d :=
    Option.isSome_iff_exists.mp (List.find?_isSome.mpr ⟨e, he, decide_eq_true rfl⟩)
  have hnumber : d.number = e.number := by simpa using List.find?_some hd
  obtain rfl := List.inj_on_of_nodup_map h.nodup (List.mem_of_find?_eq_some hd) he hnumber
  refine ⟨s.finish ctx d (failedAck ("no answer from ".toList ++ d.peerName)) none, ?_, ?_⟩
  · rw [SyncService.next, hd, Option.map_some]
  · exact ⟨_, answers_run _ _ (List.mem_append_right _ (List.mem_singleton.mpr rfl))⟩

/-- Each request is answered once, by its addressee or here. -/
theorem requests_answered (ctx : SyncContext) (s : SyncService) (h : Reachable Initial (next ctx) (Directed ctx) s) :
    s.RequestsAnswered ctx := by
  have hinv : RequestInv s := by
    apply h.invariant
    · intro s hs
      rw [Initial] at hs
      rw [hs]
      exact ⟨⟨.refl _, List.forall_mem_nil _, List.forall_mem_nil _⟩, List.forall_mem_nil _, List.forall_mem_nil _, List.Pairwise.nil⟩
    · exact fun s e t hs hok hnext => hs.next hok hnext
  exact hinv.requestsAnswered

def Fails.decidable (ctx : SyncContext) (s : SyncService) : ∀ script, Decidable (Fails ctx s script)
  | .done => .isTrue trivial
  | .request peerName kind _ handler next =>
    match h : s.addressee ctx peerName kind with
    | .error text =>
      have := Fails.decidable ctx s (handler (failedAck text))
      have := Fails.decidable ctx s next
      decidable_of_iff (Fails ctx s (handler (failedAck text)) ∧ Fails ctx s next) (by rw [Fails, h])
    | .ok _ => .isFalse (by rw [Fails, h]; exact id)

instance (script : Script) : Decidable (Fails ctx s script) := Fails.decidable ctx s script

instance (p : Peer) : Decidable (Named s p) :=
  inferInstanceAs (Decidable (∀ e ∈ s.pending, e.addressee = p.number → e.peerName = p.name))

instance : ∀ (s : SyncService) (e : ChannelEvent), Decidable (Addressed ctx s e)
  | s, .line number line => inferInstanceAs (Decidable (line.string "type" = "ack".toList →
      ∀ e ∈ s.pending, ctx.uuid e.number = (line.remove "type").string "id" → e.addressee = number))
  | _, .start .. | _, .stop | _, .setLocalInfo .. | _, .setDocument .. | _, .broadcastTimeout | _, .request ..
  | _, .requestTimeout .. | _, .answer .. | _, .acceptIncoming | _, .connectTo .. | _, .forget .. | _, .retryNow
  | _, .retryTimeout .. | _, .reevaluateAccess | _, .encrypted .. | _, .helloTimeout .. | _, .disconnected .. =>
    .isTrue trivial

instance : ∀ (s : SyncService) (e : ChannelEvent), Decidable (Directed ctx s e)
  | s, .start .. | s, .stop => inferInstanceAs (Decidable (∀ e ∈ s.pending, Fails ctx s _))
  | s, .reevaluateAccess => inferInstanceAs (Decidable (Along _ _ _ s))
  | s, .setLocalInfo .. | s, .setDocument .. | s, .broadcastTimeout | s, .request .. | s, .requestTimeout ..
  | s, .answer .. | s, .acceptIncoming | s, .connectTo .. | s, .forget .. | s, .retryNow | s, .retryTimeout ..
  | s, .encrypted .. | s, .line .. | s, .helloTimeout .. | s, .disconnected .. =>
    inferInstanceAs (Decidable (_ ∧ ∀ p ∈ dropped ctx s _, Named s p))

def ackOf (id : Name) : Object := (Object.put .empty "type" (.string "ack".toList)).put "id" (.string id)

theorem requests_answered_or_failed : ∃ s : SyncService, s.RequestsAnswered twoTrusted ∧
    s.answers.map Answer.sender = [some 0, none] ∧ s.pending.map Pending.number = [2] := by
  obtain ⟨s, hreached, hanswers, hpending⟩ : ∃ s, Reachable Initial (next twoTrusted) (Directed twoTrusted) s ∧
      s.answers.map Answer.sender = [some 0, none] ∧ s.pending.map Pending.number = [2] :=
    Reachable.exists_of_run (s := new ['s'] "server".toList []) rfl
      ([.start true true] ++ connected 0 ['a'] ++ connected 1 ['b'] ++
        [.request ['a'] .set .empty fun _ => .done, .request ['a'] .set .empty fun _ => .done, .line 0 (ackOf []),
          .request ['b'] .set .empty fun _ => .done, .disconnected 0]) (by decide)
  exact ⟨s, requests_answered twoTrusted s hreached, hanswers, hpending⟩

/-- An ack is taken from a peer that the request was not sent to. -/
theorem request_answered_by_another : ¬∀ (ctx : SyncContext) (s : SyncService),
    Reachable Initial (next ctx) (fun _ _ => True) s → s.RequestsAnswered ctx := by
  intro h
  obtain ⟨s, hreached, a, ha, haddressee, hsender⟩ : ∃ s, Reachable Initial (next twoTrusted) (fun _ _ => True) s ∧
      ∃ a ∈ s.answers, a.addressee = some 0 ∧ a.sender = some 1 :=
    Reachable.exists_of_run (s := new ['s'] "server".toList []) rfl
      ([.start true true] ++ connected 0 ['a'] ++ connected 1 ['b'] ++
        [.request ['a'] .set .empty fun _ => .done, .line 1 (ackOf [])]) (by decide)
  have hsame := (h twoTrusted s hreached).senders a ha 1 hsender
  exact absurd (haddressee.symm.trans hsame) (by decide)

end SyncService

end InputLeap.Gui
