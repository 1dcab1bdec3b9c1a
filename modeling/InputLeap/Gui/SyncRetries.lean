import InputLeap.Gui.SyncAccess

/-! Targets are tried again until they are forgotten: as long as the service listens, each one has a connection of its
own or waits for its timer. -/

namespace InputLeap.Gui

open InputLeap.Lib

namespace SyncService

variable {ctx : SyncContext} {s t : SyncService} {p q : Peer}

def outgoing (s : SyncService) (key : Name) : List Peer := s.peers.filter fun p => !p.incoming && decide (p.targetKey = key)

/-- No key has two outgoing peers, and each target has one or a timer that runs. -/
structure TargetsRetried (s : SyncService) : Prop where
  single : ∀ key, (s.outgoing key).length ≤ 1
  retried : s.identityReady = true → s.listening = true → ∀ t ∈ s.targets, (s.outgoing t.key).length = 1 ∨ t.timer = true

structure Route where
  number : ℕ
  incoming : Bool
  targetKey : Name

def Peer.route (p : Peer) : Route := ⟨p.number, p.incoming, p.targetKey⟩

def Route.Apart (a b : Route) : Prop :=
  a.number < b.number ∧ (a.incoming = false → b.incoming = false → a.targetKey ≠ b.targetKey)

structure RetryInv (skip : Name → Prop) (s : SyncService) : Prop where
  below : ∀ a ∈ s.peers.map Peer.route, a.number < s.connections
  apart : (s.peers.map Peer.route).Pairwise Route.Apart
  keys : s.targets.Pairwise fun a b => a.key ≠ b.key
  retried : s.identityReady = true → s.listening = true → ∀ t ∈ s.targets, skip t.key ∨
    (∃ a ∈ s.peers.map Peer.route, a.incoming = false ∧ a.targetKey = t.key) ∨ t.timer = true

section Steps

variable {skip : Name → Prop}

lemma hasOutgoing_iff {key : Name} : s.hasOutgoing key = true ↔
    ∃ a ∈ s.peers.map Peer.route, a.incoming = false ∧ a.targetKey = key := by
  rw [hasOutgoing, List.any_eq_true]
  constructor
  · rintro ⟨p, hp, hkey⟩
    rw [Bool.and_eq_true, decide_eq_true_eq, Bool.not_eq_true'] at hkey
    exact ⟨p.route, List.mem_map_of_mem hp, hkey⟩
  · rintro ⟨a, ha, hkey⟩
    obtain ⟨p, hp, rfl⟩ := List.mem_map.mp ha
    refine ⟨p, hp, ?_⟩
    rw [Bool.and_eq_true, decide_eq_true_eq, Bool.not_eq_true']
    exact hkey

lemma route_sent (p : Peer) (lines : List Object) : Peer.route { p with sent := lines } = p.route := rfl

lemma RetryInv.congr (h : RetryInv skip s) (hconnections : t.connections = s.connections)
    (hpeers : t.peers.map Peer.route = s.peers.map Peer.route) (htargets : t.targets = s.targets)
    (hready : t.identityReady = s.identityReady) (hlistening : t.listening = s.listening) : RetryInv skip t := by
  constructor
  · rw [hpeers, hconnections]
    exact h.below
  · rw [hpeers]
    exact h.apart
  · rw [htargets]
    exact h.keys
  · rw [hpeers, htargets, hready, hlistening]
    exact h.retried

lemma RetryInv.talked {ok : ℕ → Object → Prop} (h : RetryInv skip s) (htalked : Talked ok s t) : RetryInv skip t :=
  h.congr htalked.connections (htalked.map_peers _ route_sent) htalked.targets htalked.identityReady htalked.listening

lemma RetryInv.modifyPeer (h : RetryInv skip s) (number : ℕ) {f : Peer → Peer} (hf : ∀ p, (f p).route = p.route) :
    RetryInv skip (s.modifyPeer number f) := h.congr rfl (map_modifyPeer s number hf) rfl rfl rfl

lemma RetryInv.modifyTarget (h : RetryInv skip s) (key : Name) {f : Target → Target} (hkey : ∀ t, (f t).key = t.key)
    (htimer : ∀ t, t.timer = true → skip key ∨ (f t).timer = true) : RetryInv skip (s.modifyTarget key f) := by
  refine ⟨h.below, h.apart, ?_, fun hready hlistening => ?_⟩
  · apply List.pairwise_map.mpr
    apply h.keys.imp
    intro a b hab
    split_ifs
    · rwa [hkey, hkey]
    · rwa [hkey]
    · rwa [hkey]
    · exact hab
  · rw [SyncService.modifyTarget, List.forall_mem_map]
    intro t ht
    split_ifs with hsame
    · rw [hkey]
      rcases h.retried hready hlistening t ht with hskip | hpeer | hrunning
      · exact .inl hskip
      · exact .inr (.inl hpeer)
      · rcases htimer t hrunning with hskip | hrunning
        · exact .inl (hsame ▸ hskip)
        · exact .inr (.inr hrunning)
    · exact h.retried hready hlistening t ht

lemma RetryInv.mono {skip' : Name → Prop} (h : RetryInv skip s) (hskip : ∀ key, skip key → skip' key) : RetryInv skip' s :=
  ⟨h.below, h.apart, h.keys, fun hready hlistening t ht => (h.retried hready hlistening t ht).imp (hskip t.key) id⟩

lemma RetryInv.unique (h : RetryInv skip s) {a b : Route} (ha : a ∈ s.peers.map Peer.route)
    (hb : b ∈ s.peers.map Peer.route) (hnumber : a.number = b.number) : a = b := by
  have hnodup : ((s.peers.map Peer.route).map Route.number).Nodup :=
    List.pairwise_map.mpr (h.apart.imp fun hab => hab.1.ne)
  exact List.inj_on_of_nodup_map hnodup ha hb hnumber

lemma RetryInv.removePeer (h : RetryInv skip s) (hp : p.route ∈ s.peers.map Peer.route) :
    RetryInv (fun key => skip key ∨ p.incoming = false ∧ key = p.targetKey) (s.removePeer p.number) := by
  have hpeers : (s.removePeer p.number).peers.map Peer.route =
      (s.peers.map Peer.route).filter fun a => decide (a.number ≠ p.number) := by
    rw [List.filter_map]
    rfl
  constructor
  · rw [hpeers]
    exact fun a ha => h.below a (List.mem_of_mem_filter ha)
  · rw [hpeers]
    exact h.apart.filter _
  · exact h.keys
  · intro hready hlistening t ht
    rw [hpeers]
    rcases h.retried hready hlistening t ht with hskip | ⟨a, ha, hincoming, hkey⟩ | hrunning
    · exact .inl (.inl hskip)
    · by_cases hnumber : a.number = p.number
      · obtain rfl := h.unique ha hp hnumber
        exact .inl (.inr ⟨hincoming, hkey.symm⟩)
      · exact .inr (.inl ⟨a, List.mem_filter.mpr ⟨ha, decide_eq_true hnumber⟩, hincoming, hkey⟩)
    · exact .inr (.inr hrunning)

lemma RetryInv.scheduleRetry {key : Name} (h : RetryInv (fun k => skip k ∨ k = key) s) :
    RetryInv skip (s.scheduleRetry key) := by
  have hmodified := h.modifyTarget key (f := fun t =>
    { t with retryMs := min kMaxRetryMs (if t.retryMs = 0 then kFirstRetryMs else t.retryMs * 2), timer := true })
    (fun t => rfl) fun t _ => .inr rfl
  refine ⟨h.below, h.apart, hmodified.keys, fun hready hlistening t ht => ?_⟩
  obtain ⟨u, hu, rfl⟩ := List.mem_map.mp ht
  by_cases hkey : u.key = key
  · rw [if_pos hkey]
    exact .inr (.inr rfl)
  · rw [if_neg hkey]
    rcases h.retried hready hlistening u hu with (hskip | hsame) | hrest
    · exact .inl hskip
    · exact absurd hsame hkey
    · exact .inr hrest

lemma RetryInv.dropPeer (h : RetryInv skip s) (hp : p.route ∈ s.peers.map Peer.route) :
    RetryInv skip (s.dropPeer ctx p) := by
  obtain ⟨u, htalked, hdrop⟩ := dropPeer_eq ctx s p
  have hremoved := (h.removePeer hp).talked htalked
  rw [hdrop]
  split_ifs with hincoming
  · apply hremoved.mono
    rintro key (hskip | ⟨houtgoing, -⟩)
    · exact hskip
    · exact absurd (hincoming.symm.trans houtgoing) (by simp)
  · apply RetryInv.scheduleRetry
    exact hremoved.mono fun key => Or.imp id And.right

lemma RetryInv.dropWhere (h : RetryInv skip s) (which : Peer → Bool) : RetryInv skip (s.dropWhere ctx which) := by
  rw [SyncService.dropWhere]
  split
  · exact h
  · rename_i p hfound
    exact h.dropPeer (List.mem_map_of_mem (List.mem_of_find?_eq_some hfound))

lemma RetryInv.attach (h : RetryInv skip s) (incoming : Bool) {targetKey : Name} (targetName : Name)
    (hfree : incoming = false → s.hasOutgoing targetKey = false) : RetryInv skip (s.attach incoming targetKey targetName) := by
  have hpeers : (s.attach incoming targetKey targetName).peers.map Peer.route =
      s.peers.map Peer.route ++ [⟨s.connections, incoming, targetKey⟩] := by
    rw [SyncService.attach, List.map_append]
    rfl
  refine ⟨?_, ?_, h.keys, fun hready hlistening t ht => ?_⟩
  · rw [hpeers, List.forall_mem_append, List.forall_mem_singleton]
    exact ⟨fun a ha => Nat.lt_succ_of_lt (h.below a ha), Nat.lt_succ_self _⟩
  · rw [hpeers]
    apply List.pairwise_append.mpr
    refine ⟨h.apart, List.pairwise_singleton _ _, fun a ha b hb => ?_⟩
    rw [List.mem_singleton.mp hb]
    refine ⟨h.below a ha, fun ha' hb' hkey => ?_⟩
    have hbusy := hasOutgoing_iff.mpr ⟨a, ha, ha', hkey⟩
    rw [hfree hb'] at hbusy
    cases hbusy
  · rw [hpeers]
    rcases h.retried hready hlistening t ht with hskip | ⟨a, ha, hkey⟩ | hrunning
    · exact .inl hskip
    · exact .inr (.inl ⟨a, List.mem_append_left _ ha, hkey⟩)
    · exact .inr (.inr hrunning)

lemma RetryInv.attempt {key : Name} (h : RetryInv (fun k => skip k ∨ k = key) s) : RetryInv skip (s.attempt key) := by
  rcases attempt_cases s key with ⟨hsame, hbusy⟩ | ⟨t, hfree, hattempt⟩
  · rw [hsame]
    refine ⟨h.below, h.apart, h.keys, fun hready hlistening u hu => ?_⟩
    rcases h.retried hready hlistening u hu with (hskip | hkey) | hrest
    · exact .inl hskip
    · rw [hkey]
      refine .inr (.inl (hasOutgoing_iff.mp (hbusy hready hlistening fun hnone => ?_)))
      have hnot := List.find?_eq_none.mp hnone u hu
      exact hnot (decide_eq_true hkey)
    · exact .inr hrest
  · have hstopped := h.modifyTarget key (f := fun t => { t with timer := false }) (fun t => rfl)
      fun t _ => .inl (.inr rfl)
    have hattached := hstopped.attach false t.name fun _ => hfree
    rw [hattempt]
    refine ⟨hattached.below, hattached.apart, hattached.keys, fun hready hlistening u hu => ?_⟩
    rcases hattached.retried hready hlistening u hu with (hskip | hkey) | hrest
    · exact .inl hskip
    · refine .inr (.inl ⟨⟨s.connections, false, key⟩, ?_, rfl, hkey.symm⟩)
      rw [SyncService.attach, List.map_append]
      exact List.mem_append_right _ (List.mem_singleton.mpr rfl)
    · exact .inr hrest

lemma RetryInv.setTarget (h : RetryInv skip s) (key name host : Name) (port : ℕ) :
    RetryInv (fun k => skip k ∨ k = key) (s.setTarget key name host port) := by
  have hmore : RetryInv (fun k => skip k ∨ k = key) s := h.mono fun k => .inl
  rw [SyncService.setTarget]
  split
  · rename_i hnone
    refine ⟨h.below, h.apart, ?_, fun hready hlistening t ht => ?_⟩
    · apply List.pairwise_append.mpr
      refine ⟨h.keys, List.pairwise_singleton _ _, fun t ht u hu => ?_⟩
      rw [List.mem_singleton.mp hu]
      intro hkey
      exact List.find?_eq_none.mp hnone t ht (decide_eq_true hkey)
    · rcases List.mem_append.mp ht with ht | ht
      · exact hmore.retried hready hlistening t ht
      · rw [List.mem_singleton.mp ht]
        exact .inl (.inr rfl)
  · exact hmore.modifyTarget _ (fun t => rfl) fun t _ => .inl (.inr rfl)

lemma RetryInv.connectTo (h : RetryInv skip s) (name host : Name) (port : ℕ) :
    RetryInv skip (s.connectTo ctx name host port) := by
  unfold SyncService.connectTo
  split
  · exact h
  · dsimp only
    split
    · exact h
    · exact ((h.setTarget _ name host port).dropWhere _).attempt

lemma RetryInv.foldl {α : Type} {f : SyncService → α → SyncService} (hf : ∀ s a, RetryInv skip s → RetryInv skip (f s a))
    (as : List α) {s : SyncService} (h : RetryInv skip s) : RetryInv skip (as.foldl f s) := by
  induction as generalizing s with
  | nil => exact h
  | cons a as ih => exact ih (hf s a h)

lemma RetryInv.retryNow (h : RetryInv skip s) : RetryInv skip s.retryNow := by
  apply RetryInv.foldl _ _ h
  intro s key h
  rw [retryTarget]
  split_ifs
  · exact h
  · have hreset := h.modifyTarget key (f := fun t => { t with retryMs := 0 }) (fun t => rfl) fun t => .inr
    exact (hreset.mono fun k => .inl).attempt

lemma RetryInv.forget (h : RetryInv skip s) (key : Name) : RetryInv skip (s.forget ctx key) := by
  apply RetryInv.dropWhere
  exact ⟨h.below, h.apart, h.keys.filter _, fun hready hlistening t ht =>
    h.retried hready hlistening t (List.mem_of_mem_filter ht)⟩

lemma RetryInv.reevaluateAccess (h : RetryInv skip s) : RetryInv skip (s.reevaluateAccess ctx) := by
  apply RetryInv.foldl _ _ h
  intro s number h
  rw [reevaluate]
  split
  · exact h
  · rename_i p hp
    split_ifs
    · exact h
    · exact h.dropPeer (List.mem_map_of_mem (mem_of_peer hp).1)
    · have hset := h.modifyPeer number (f := fun p => { p with access := accessOf ctx p p.name }) fun p => rfl
      exact hset.talked (talked_sendDocument _ _ _ _)

lemma RetryInv.broadcast (h : RetryInv skip s) : RetryInv skip s.broadcast := by
  have hcleared : RetryInv skip { s with dirty := [], broadcastTimer := false } := h.congr rfl rfl rfl rfl rfl
  exact hcleared.talked (Talked.foldl (talked_publish s.dirty) _ _)

lemma RetryInv.setLocalInfo (h : RetryInv skip s) (name role version : Name) :
    RetryInv skip (s.setLocalInfo name role version) := by
  have hset : RetryInv skip { s with name := name, role := role, version := version } := h.congr rfl rfl rfl rfl rfl
  unfold SyncService.setLocalInfo
  split_ifs
  · apply hset.talked
    apply Talked.foldl
    intro t number
    exact talked_sendDocument t number _ _
  · exact hset

lemma RetryInv.of_empty (hpeers : s.peers = []) (htargets : s.targets = []) : RetryInv skip s := by
  constructor
  · rw [hpeers]
    exact List.forall_mem_nil _
  · rw [hpeers]
    exact List.Pairwise.nil
  · rw [htargets]
    exact List.Pairwise.nil
  · rw [htargets]
    exact fun _ _ => List.forall_mem_nil _

section Lines

variable (h : RetryInv skip s) (hp : p.route ∈ s.peers.map Peer.route)

include h

lemma RetryInv.welcome (o : Object) : RetryInv skip (s.welcome ctx p o) := by
  have hread := h.modifyPeer p.number (f := fun q => { q with
    access := accessOf ctx p p.name, protocol := o.int "protocol" 1 }) fun p => rfl
  have hreplaced : RetryInv skip ((s.modifyPeer p.number _).dropWhere ctx _) := hread.dropWhere fun q =>
    decide (q.number ≠ p.number) && q.verified && decide (q.name = p.name)
  have hverified := hreplaced.modifyPeer p.number (f := fun q => { q with verified := true, helloTimer := false })
    fun p => rfl
  exact (hverified.talked (talked_sendDocument _ _ _ _)).talked (talked_sendAll _ _)

include hp

lemma RetryInv.greet (o : Object) : RetryInv skip (s.greet ctx p o) := by
  have hnamed := h.modifyPeer p.number (f := fun p => introduced p o) fun p => rfl
  rw [SyncService.greet]
  split_ifs
  · apply hnamed.dropPeer
    rw [map_modifyPeer (f := Peer.route) (g := fun p => introduced p o) s p.number fun p => rfl]
    exact hp
  · exact hnamed.welcome o

lemma RetryInv.handleKind (kind : Name) (o : Object) : RetryInv skip (s.handleKind ctx p kind o) := by
  rw [SyncService.handleKind]
  split_ifs
  · exact h.modifyPeer p.number fun p => rfl
  · exact h.greet hp o
  · exact h
  · exact h.modifyPeer p.number fun p => rfl
  · exact h.talked (talked_finishPending _ _ _ s)
  · split
    · rw [handleRequest]
      split_ifs
      · exact h
      · exact h.talked (talked_sendDocument _ _ _ _)
    · exact h.modifyPeer p.number fun p => rfl

lemma RetryInv.handleLine (line : Object) : RetryInv skip (s.handleLine ctx p line) := by
  have hread := h.modifyPeer p.number (f := reads line) fun p => rfl
  apply hread.handleKind
  rw [map_modifyPeer (f := Peer.route) (g := reads line) s p.number fun p => rfl]
  exact hp

lemma RetryInv.onEncrypted (fingerprint : Name) : RetryInv skip (s.onEncrypted ctx p fingerprint) := by
  rw [SyncService.onEncrypted]
  split_ifs
  · exact h.dropPeer hp
  · have hset := h.modifyPeer p.number (f := fun p => { p with fingerprint := fingerprint }) fun p => rfl
    exact hset.talked (talked_sendDocument _ _ _ _)

end Lines

end Steps

lemma RetryInv.next {e : ChannelEvent} (h : RetryInv (fun _ => False) s) (hnext : s.next ctx e = some t) :
    RetryInv (fun _ => False) t := by
  have hroute {p : Peer} (hp : s.peer p.number = some p) : p.route ∈ s.peers.map Peer.route :=
    List.mem_map_of_mem (mem_of_peer hp).1
  cases step_of_next hnext with
  | start => exact .of_empty rfl (talked_failPending _ _ _).targets
  | stop => exact .of_empty rfl (talked_failPending _ _ _).targets
  | setLocalInfo name role version => exact h.setLocalInfo name role version
  | setDocument kind document =>
    rw [SyncService.setDocument]
    split
    · exact h
    · exact h.congr rfl rfl rfl rfl rfl
  | broadcastTimeout => exact h.broadcast
  | request => exact h.talked (talked_run _ s)
  | requestTimeout => exact h.talked (talked_finish _ _ _ s)
  | answer =>
    rw [SyncService.answer]
    split
    · exact h
    · exact h.talked (talked_sendDocument _ _ _ _)
  | acceptIncoming => exact h.attach true _ (by simp)
  | connectTo name host port => exact h.connectTo name host port
  | forget key => exact h.forget key
  | retryNow => exact h.retryNow
  | retryTimeout key =>
    apply RetryInv.attempt
    exact (h.mono fun _ => .inl).modifyTarget _ (fun t => rfl) fun t _ => .inl (.inr rfl)
  | reevaluateAccess => exact h.reevaluateAccess
  | encrypted hp _ fingerprint => exact h.onEncrypted (hroute hp) fingerprint
  | line hp _ line => exact h.handleLine (hroute hp) line
  | helloTimeout hp => exact h.dropPeer (hroute hp)
  | disconnected hp => exact h.dropPeer (hroute hp)

lemma RetryInv.targetsRetried (h : RetryInv (fun _ => False) s) : TargetsRetried s := by
  have hsingle (key : Name) : (s.outgoing key).length ≤ 1 := by
    have hapart : (s.outgoing key).Pairwise fun p q => p.route.Apart q.route :=
      (List.pairwise_map.mp h.apart).filter _
    by_contra! hlong
    obtain ⟨p, q, rest, hsplit⟩ : ∃ p q rest, s.outgoing key = p :: q :: rest := by
      cases houtgoing : s.outgoing key with
      | nil => simp [houtgoing] at hlong
      | cons p qs =>
        cases qs with
        | nil => simp [houtgoing] at hlong
        | cons q rest => exact ⟨p, q, rest, rfl⟩
    rw [hsplit] at hapart
    have hkeys : ∀ p ∈ s.outgoing key, p.incoming = false ∧ p.targetKey = key := by
      intro p hp
      simpa using (List.mem_filter.mp hp).2
    rw [hsplit] at hkeys
    obtain ⟨hp, hkey⟩ := hkeys p List.mem_cons_self
    obtain ⟨hq, hkey'⟩ := hkeys q (List.mem_cons_of_mem p List.mem_cons_self)
    exact (List.rel_of_pairwise_cons hapart List.mem_cons_self).2 hp hq (hkey.trans hkey'.symm)
  refine ⟨hsingle, fun hready hlistening t ht => ?_⟩
  rcases h.retried hready hlistening t ht with hskip | hpeer | hrunning
  · cases hskip
  · have hbusy := List.any_eq_true.mp (hasOutgoing_iff.mpr hpeer)
    obtain ⟨p, hp, hkey⟩ := hbusy
    exact .inl (le_antisymm (hsingle t.key) (List.length_pos_of_mem (List.mem_filter.mpr ⟨hp, hkey⟩)))
  · exact .inr hrunning

/-- Until it is forgotten, a target has one connection or waits for the next attempt. -/
theorem targets_retried (ctx : SyncContext) (s : SyncService) (h : Reachable Initial (next ctx) (fun _ _ => True) s) :
    s.TargetsRetried := by
  have hinv : RetryInv (fun _ => False) s := by
    apply h.invariant
    · intro s hs
      exact .of_empty (congrArg SyncService.peers hs) (congrArg SyncService.targets hs)
    · exact fun s e t hs _ hnext => hs.next hnext
  exact hinv.targetsRetried

theorem targets_retried_refused : ∃ s : SyncService, s.TargetsRetried ∧ s.listening = true ∧
    s.targets.map Target.timer = [true, false] ∧ s.peers.map Peer.targetKey = [['b']] := by
  obtain ⟨s, hreached, hlistening, htargets, hpeers⟩ : ∃ s, Reachable Initial (next twoTrusted) (fun _ _ => True) s ∧
      s.listening = true ∧ s.targets.map Target.timer = [true, false] ∧ s.peers.map Peer.targetKey = [['b']] :=
    Reachable.exists_of_run (s := new ['c'] "client".toList []) rfl
      [.start true true, .connectTo ['a'] ['h'] 1, .connectTo ['b'] ['i'] 1, .encrypted 0 ['f'], .line 0 (helloOf ['b'])]
      (by decide)
  exact ⟨s, targets_retried twoTrusted s hreached, hlistening, htargets, hpeers⟩

end SyncService

end InputLeap.Gui
