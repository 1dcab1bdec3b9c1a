import InputLeap.Gui.SyncDocuments

/-! Healthy connections between windows, which stay up unless two of them lead to one computer. -/

namespace InputLeap.Gui

open InputLeap.Lib

namespace SyncService

variable {ctx : SyncContext} {s t u : SyncService} {p q : Peer}

/-- No target is moved while it has a connection, and a connection that greets is let in and replaces no other. -/
def Undisturbed (ctx : SyncContext) (s : SyncService) : ChannelEvent → Prop
  | .connectTo name host port => host ≠ [] → port ≠ 0 → s.hasOutgoing (targetKeyOf name host port) = true →
    (s.target (targetKeyOf name host port)).any (fun t => decide (t.host = host ∧ t.port = port)) = true
  | .line number line => line.string "type" = "hello".toList → ∀ p ∈ s.peer number, p.verified = false →
    refuses ctx (introduced p (line.remove "type")) = false ∧
      ∀ q ∈ s.peers, q.number ≠ number → q.verified = true → q.name ≠ (line.remove "type").string "name"
  | _ => True

/-- Nothing is stopped, forgotten or trusted anew, and connections do not fail. Some were closed at the other end. -/
def Healthy (closed : ℕ → Prop) (s : SyncService) : ChannelEvent → Prop
  | .start .. => s.peers = []
  | .stop | .forget _ | .reevaluateAccess | .helloTimeout _ => False
  | .disconnected number => closed number
  | .encrypted _ fingerprint => fingerprint ≠ []
  | _ => True

def Keeps (s t : SyncService) : Prop :=
  ∀ p ∈ s.peers, ∃ q ∈ t.peers, q.number = p.number ∧ (p.verified = true → q.verified = true)

namespace Keeps

lemma of_subset (h : s.peers ⊆ t.peers) : Keeps s t := fun p hp => ⟨p, h hp, rfl, id⟩

lemma refl (s : SyncService) : Keeps s s := of_subset (List.Subset.refl _)

lemma trans (h : Keeps s t) (h' : Keeps t u) : Keeps s u := by
  intro p hp
  obtain ⟨q, hq, hnumber, hverified⟩ := h p hp
  obtain ⟨r, hr, hnumber', hverified'⟩ := h' q hq
  exact ⟨r, hr, hnumber'.trans hnumber, fun hp => hverified' (hverified hp)⟩

lemma talked {ok : ℕ → Object → Prop} (h : Talked ok s t) : Keeps s t := by
  intro p hp
  have hviews := h.map_peers (fun p => (p.number, p.verified)) fun _ _ => rfl
  have hview : (p.number, p.verified) ∈ t.peers.map fun p => (p.number, p.verified) := hviews ▸ List.mem_map_of_mem hp
  obtain ⟨q, hq, hsame⟩ := List.mem_map.mp hview
  exact ⟨q, hq, (Prod.ext_iff.mp hsame).1, fun hverified => (Prod.ext_iff.mp hsame).2.trans hverified⟩

lemma modifyPeer (s : SyncService) (number : ℕ) {f : Peer → Peer} (hnumber : ∀ p, (f p).number = p.number)
    (hverified : ∀ p, p.verified = true → (f p).verified = true) : Keeps s (s.modifyPeer number f) := by
  intro p hp
  refine ⟨_, List.mem_map_of_mem hp, ?_⟩
  split_ifs
  · exact ⟨hnumber p, hverified p⟩
  · exact ⟨rfl, id⟩

lemma foldl {α : Type} {f : SyncService → α → SyncService} (hf : ∀ s a, Keeps s (f s a)) (as : List α) (s : SyncService) :
    Keeps s (as.foldl f s) := by
  induction as generalizing s with
  | nil => exact .refl s
  | cons a as ih => exact (hf s a).trans (ih (f s a))

lemma attach (s : SyncService) (incoming : Bool) (targetKey targetName : Name) :
    Keeps s (s.attach incoming targetKey targetName) := of_subset (List.subset_append_left _ _)

lemma attempt (s : SyncService) (key : Name) : Keeps s (s.attempt key) := by
  rcases attempt_cases s key with ⟨hsame, -⟩ | ⟨t, -, hattempt⟩
  · rw [hsame]
    exact .refl s
  · rw [hattempt]
    exact .attach _ _ _ _

lemma dropWhere {which : Peer → Bool} (h : ∀ p ∈ s.peers, which p = false) : s.dropWhere ctx which = s := by
  have hnone : s.peers.find? which = none := by
    apply List.find?_eq_none.mpr
    intro p hp
    rw [h p hp]
    exact Bool.false_ne_true
  rw [SyncService.dropWhere, hnone]

lemma connectTo {name host : Name} {port : ℕ} (h : Undisturbed ctx s (.connectTo name host port)) :
    Keeps s (s.connectTo ctx name host port) := by
  rw [SyncService.connectTo]
  dsimp only
  split_ifs with hunset hknown
  · exact .refl s
  · exact .refl s
  · rw [not_or] at hunset
    have hfree : s.hasOutgoing (targetKeyOf name host port) = false := by
      apply Bool.eq_false_iff.mpr
      exact fun hbusy => hknown ⟨h hunset.1 hunset.2 hbusy, hbusy⟩
    have hpeers : (s.setTarget (targetKeyOf name host port) name host port).peers = s.peers := by
      rw [setTarget]
      split
      · rfl
      · rfl
    have hset : Keeps s (s.setTarget (targetKeyOf name host port) name host port) := by
      apply of_subset
      rw [hpeers]
      exact List.Subset.refl _
    rw [dropWhere]
    · exact hset.trans (.attempt _ _)
    · rw [hpeers]
      exact fun p hp => Bool.eq_false_iff.mpr (List.any_eq_false.mp hfree p hp)

lemma retryNow (s : SyncService) : Keeps s s.retryNow := by
  apply Keeps.foldl
  intro s key
  rw [retryTarget]
  split_ifs
  · exact .refl s
  · exact .attempt (s.modifyTarget key fun t => { t with retryMs := 0 }) key

lemma onEncrypted (s : SyncService) (p : Peer) {fingerprint : Name} (h : fingerprint ≠ []) :
    Keeps s (s.onEncrypted ctx p fingerprint) := by
  have hset := Keeps.modifyPeer s p.number (f := fun q => { q with fingerprint := fingerprint }) (fun _ => rfl) fun _ => id
  rw [SyncService.onEncrypted, if_neg h]
  exact hset.trans (.talked (talked_sendDocument _ _ _ _))

lemma forall_modifyPeer {number : ℕ} {f : Peer → Peer} {P : Peer → Prop} (h : ∀ q ∈ s.peers, q.number ≠ number → P q)
    (hf : ∀ q, (f q).number = q.number) : ∀ q ∈ (s.modifyPeer number f).peers, q.number ≠ number → P q := by
  rw [SyncService.modifyPeer, List.forall_mem_map]
  intro q hq
  split_ifs with hnumber
  · exact fun hne => absurd ((hf q).trans hnumber) hne
  · exact h q hq

lemma welcome (o : Object) (h : ∀ q ∈ s.peers, q.number ≠ p.number → q.verified = true → q.name ≠ p.name) :
    Keeps s (s.welcome ctx p o) := by
  have hset := Keeps.modifyPeer s p.number (f := fun q => { q with access := accessOf ctx p p.name, protocol := o.int "protocol" 1 })
    (fun _ => rfl) fun _ => id
  have hnone := forall_modifyPeer (f := fun q => { q with access := accessOf ctx p p.name, protocol := o.int "protocol" 1 })
    h fun _ => rfl
  unfold SyncService.welcome
  dsimp only
  rw [dropWhere]
  · have hverified := hset.trans (.modifyPeer _ p.number (f := fun q => { q with verified := true, helloTimer := false })
      (fun _ => rfl) fun _ _ => rfl)
    exact (hverified.trans (.talked (talked_sendDocument _ _ _ _))).trans (.talked (talked_sendAll _ _))
  · intro q hq
    by_cases hnumber : q.number = p.number
    · simp [hnumber]
    · by_cases hverified : q.verified = true
      · simp [hnone q hq hnumber hverified]
      · simp [hverified]

lemma handleLine {line : Object} (hp : s.peer p.number = some p) (h : Undisturbed ctx s (.line p.number line)) :
    Keeps s (s.handleLine ctx p line) := by
  have hread := Keeps.modifyPeer s p.number (f := reads line) (fun _ => rfl) fun _ => id
  unfold SyncService.handleLine SyncService.handleKind
  split_ifs with hhello hverified
  · exact hread.trans (.modifyPeer _ _ (fun _ => rfl) fun _ => id)
  · obtain ⟨hlet, hothers⟩ := h hhello p hp (Bool.eq_false_iff.mpr hverified)
    have hintroduced := hread.trans (.modifyPeer _ p.number (f := fun p => introduced p (line.remove "type")) (fun _ => rfl) fun _ => id)
    rw [greet, if_neg]
    · apply hintroduced.trans
      apply welcome
      exact forall_modifyPeer (forall_modifyPeer hothers fun _ => rfl) fun _ => rfl
    · exact Bool.eq_false_iff.mp hlet
  · exact hread
  · exact hread.trans (.modifyPeer _ _ (fun _ => rfl) fun _ => id)
  · exact hread.trans (.talked (talked_finishPending _ _ _ _))
  · split
    · rw [handleRequest]
      split_ifs
      · exact hread
      · exact hread.trans (.talked (talked_sendDocument _ _ _ _))
    · exact hread.trans (.modifyPeer _ _ (fun _ => rfl) fun _ => id)

lemma next {e : ChannelEvent} {closed : ℕ → Prop} (hclosed : ∀ number, ¬closed number) (hhealthy : Healthy closed s e)
    (h : Undisturbed ctx s e) (hnext : s.next ctx e = some t) : Keeps s t := by
  cases step_of_next hnext with
  | start =>
    intro p hp
    rw [hhealthy] at hp
    cases hp
  | setLocalInfo name role version =>
    have hset : Keeps s { s with name := name, role := role, version := version } := of_subset (List.Subset.refl _)
    unfold SyncService.setLocalInfo
    split_ifs
    · apply hset.trans
      apply Keeps.foldl
      exact fun t number => .talked (talked_sendDocument t number _ _)
    · exact hset
  | setDocument kind document =>
    rw [SyncService.setDocument]
    split_ifs
    · exact .refl s
    · exact of_subset (List.Subset.refl _)
    · exact of_subset (List.Subset.refl _)
  | broadcastTimeout =>
    have hcleared : Keeps s { s with dirty := [], broadcastTimer := false } := of_subset (List.Subset.refl _)
    exact hcleared.trans (.talked (Talked.foldl (talked_publish s.dirty) _ _))
  | request => exact .talked (talked_run _ s)
  | requestTimeout => exact .talked (talked_finish _ _ _ s)
  | answer =>
    rw [SyncService.answer]
    split
    · exact .refl s
    · exact .talked (talked_sendDocument _ _ _ _)
  | acceptIncoming => exact .attach s true [] []
  | connectTo name host port => exact .connectTo h
  | retryNow => exact .retryNow s
  | retryTimeout key => exact .attempt (s.modifyTarget key fun t => { t with timer := false }) key
  | encrypted hp hfresh fingerprint => exact .onEncrypted s _ hhealthy
  | line hp hencrypted line => exact .handleLine hp h
  | stop => cases hhealthy
  | forget key => cases hhealthy
  | reevaluateAccess => cases hhealthy
  | helloTimeout hp => cases hhealthy
  | disconnected hp => exact absurd hhealthy (hclosed _)

end Keeps

end SyncService

namespace SyncNetwork

open SyncService

variable {ι : Type} [DecidableEq ι] {net : NetworkContext ι} {s t : SyncNetwork ι}

def Closed (s : SyncNetwork ι) (i : ι) (number : ℕ) : Prop := ∃ f ∈ s.other (i, number), s.peerAt f = none

def Healthy (s : SyncNetwork ι) : NetworkEvent ι → Prop
  | .own i e => (s.node i).Healthy (s.Closed i) e
  | .connect .. => True

def Undisturbed (net : NetworkContext ι) (s : SyncNetwork ι) : NetworkEvent ι → Prop
  | .own i e => (s.node i).Undisturbed (net.ctx i) e
  | .connect .. => True

def KeepsVerified (s t : SyncNetwork ι) : Prop :=
  ∀ i, ∀ p ∈ (s.node i).peers, p.verified = true → ∃ q ∈ (t.node i).peers, q.number = p.number ∧ q.verified = true

def Alive (s : SyncNetwork ι) (e : End ι) : Prop := ∃ p ∈ (s.node e.1).peers, p.number = e.2

def Joined (s : SyncNetwork ι) : Prop := ∀ l ∈ s.links, s.Alive l.1 ∧ s.Alive l.2

lemma Joined.other (h : Joined s) {e f : End ι} (hother : s.other e = some f) : s.peerAt f ≠ none := by
  obtain ⟨p, hp, hnumber⟩ : s.Alive f := by
    rcases mem_of_other hother with hlink | hlink
    · exact (h _ hlink).2
    · exact (h _ hlink).1
  exact fun hnone => List.find?_eq_none.mp hnone p hp (decide_eq_true hnumber)

lemma keeps_next {event : NetworkEvent ι} (hjoined : Joined s) (hhealthy : s.Healthy event) (h : s.Undisturbed net event)
    (hnext : s.next net event = some t) : ∀ i, Keeps (s.node i) (t.node i) := by
  cases event with
  | own i event =>
    obtain ⟨-, hmap⟩ := Option.ite_none_right_eq_some.mp hnext
    obtain ⟨u, hu, rfl⟩ := Option.map_eq_some_iff.mp hmap
    intro j
    rw [node_setNode]
    split_ifs with hnode
    · subst hnode
      refine .next ?_ hhealthy h hu
      rintro number ⟨f, hother, hgone⟩
      exact hjoined.other hother hgone
    · exact .refl _
  | connect i number j =>
    obtain ⟨-, hmap⟩ := Option.ite_none_right_eq_some.mp hnext
    obtain ⟨u, hu, rfl⟩ := Option.map_eq_some_iff.mp hmap
    intro k
    change Keeps (s.node k) ((s.setNode j u).node k)
    rw [node_setNode]
    split_ifs with hnode
    · subst hnode
      exact .next (e := .acceptIncoming) (fun _ => not_false) trivial trivial hu
    · exact .refl _

lemma Joined.next {event : NetworkEvent ι} (h : Joined s) (hhealthy : s.Healthy event) (hundisturbed : s.Undisturbed net event)
    (hnext : s.next net event = some t) : Joined t := by
  have halive {e : End ι} (halive : s.Alive e) : t.Alive e := by
    obtain ⟨p, hp, hnumber⟩ := halive
    obtain ⟨q, hq, hsame, -⟩ := keeps_next h hhealthy hundisturbed hnext e.1 p hp
    exact ⟨q, hq, hsame.trans hnumber⟩
  have hold : ∀ l ∈ s.links, t.Alive l.1 ∧ t.Alive l.2 := fun l hl => ⟨halive (h l hl).1, halive (h l hl).2⟩
  cases event with
  | own i event =>
    obtain ⟨-, hmap⟩ := Option.ite_none_right_eq_some.mp hnext
    obtain ⟨u, -, rfl⟩ := Option.map_eq_some_iff.mp hmap
    exact hold
  | connect i number j =>
    obtain ⟨⟨-, p, hp, -⟩, hmap⟩ := Option.ite_none_right_eq_some.mp hnext
    obtain ⟨u, hu, rfl⟩ := Option.map_eq_some_iff.mp hmap
    obtain ⟨-, hu⟩ := Option.ite_none_right_eq_some.mp hu
    obtain rfl := Option.some.inj hu
    intro l hl
    rcases List.mem_append.mp hl with hl | hl
    · exact hold l hl
    · obtain rfl := List.mem_singleton.mp hl
      refine ⟨halive ⟨p, mem_of_peer hp⟩, (s.node j).newPeer true [] [], ?_, rfl⟩
      change _ ∈ ((s.setNode j (s.node j).acceptIncoming).node j).peers
      rw [node_setNode, if_pos rfl]
      exact List.mem_append_right _ (List.mem_singleton.mpr rfl)

/-- As long as no connection that greets bears the name of a verified one, none is dropped. -/
theorem verified_peers_stay (net : NetworkContext ι) (s : SyncNetwork ι)
    (h : Reachable Initial (next net) (fun s e => s.Healthy e ∧ s.Undisturbed net e) s) (event : NetworkEvent ι) (t : SyncNetwork ι)
    (hhealthy : s.Healthy event) (hundisturbed : s.Undisturbed net event) (hnext : s.next net event = some t) : s.KeepsVerified t := by
  have hjoined : Joined s := by
    apply h.invariant
    · intro s hs
      rw [Joined, hs.1]
      exact List.forall_mem_nil _
    · exact fun s e t hs hok hnext => hs.next hok.1 hok.2 hnext
  intro i p hp hverified
  obtain ⟨q, hq, hnumber, hkept⟩ := keeps_next hjoined hhealthy hundisturbed hnext i p hp
  exact ⟨q, hq, hnumber, hkept hverified⟩

instance (s : SyncNetwork ι) (i : ι) (number : ℕ) : Decidable (s.Closed i number) :=
  have (f : End ι) : Decidable (s.peerAt f = none) := inferInstance
  Option.decidableExistsMem _

instance (closed : ℕ → Prop) [DecidablePred closed] (s : SyncService) : ∀ e, Decidable (s.Healthy closed e)
  | .start .. => inferInstanceAs (Decidable (s.peers = []))
  | .disconnected number => inferInstanceAs (Decidable (closed number))
  | .encrypted _ fingerprint => inferInstanceAs (Decidable (fingerprint ≠ []))
  | .stop | .forget _ | .reevaluateAccess | .helloTimeout _ => .isFalse id
  | .setLocalInfo .. | .setDocument .. | .broadcastTimeout | .request .. | .requestTimeout _ | .answer .. | .acceptIncoming
  | .connectTo .. | .retryNow | .retryTimeout _ | .line .. => .isTrue trivial

instance (ctx : SyncContext) (s : SyncService) : ∀ e, Decidable (s.Undisturbed ctx e)
  | .connectTo _ host port => inferInstanceAs (Decidable (host ≠ [] → port ≠ 0 → _ = true → _ = true))
  | .line number line =>
    have : Decidable (∀ p ∈ s.peer number, p.verified = false → refuses ctx (introduced p (line.remove "type")) = false ∧
        ∀ q ∈ s.peers, q.number ≠ number → q.verified = true → q.name ≠ (line.remove "type").string "name") :=
      Option.decidableForallMem _
    inferInstanceAs (Decidable (_ → _))
  | .start .. | .stop | .setLocalInfo .. | .setDocument .. | .broadcastTimeout | .request .. | .requestTimeout _ | .answer ..
  | .acceptIncoming | .forget _ | .retryNow | .retryTimeout _ | .reevaluateAccess | .encrypted .. | .helloTimeout _
  | .disconnected _ => .isTrue trivial

instance (s : SyncNetwork ι) : ∀ e, Decidable (s.Healthy e)
  | .own i e => inferInstanceAs (Decidable ((s.node i).Healthy (s.Closed i) e))
  | .connect .. => .isTrue trivial

instance (s : SyncNetwork ι) : ∀ e, Decidable (s.Undisturbed net e)
  | .own i e => inferInstanceAs (Decidable ((s.node i).Undisturbed (net.ctx i) e))
  | .connect .. => .isTrue trivial

theorem verified_peers_stay_met : ∃ s t : SyncNetwork Bool, s.KeepsVerified t ∧ (s.peerAt (true, 0)).map Peer.verified = some true := by
  obtain ⟨s, hreached, hhealthy, hundisturbed, hsome, hverified⟩ : ∃ s,
      Reachable Initial (next twoComputers) (fun s e => s.Healthy e ∧ s.Undisturbed twoComputers e) s ∧
        s.Healthy (.own false (.setDocument "fleet".toList (fleet "online"))) ∧
        s.Undisturbed twoComputers (.own false (.setDocument "fleet".toList (fleet "online"))) ∧
        (s.next twoComputers (.own false (.setDocument "fleet".toList (fleet "online")))).isSome = true ∧
        (s.peerAt (true, 0)).map Peer.verified = some true :=
    Reachable.exists_of_run (s := unstarted) ⟨rfl, fun _ => rfl⟩ met (by decide)
  obtain ⟨t, hnext⟩ := Option.isSome_iff_exists.mp hsome
  exact ⟨s, t, verified_peers_stay twoComputers s hreached _ t hhealthy hundisturbed hnext, hverified⟩

def TargetVerified (s : SyncNetwork ι) (i : ι) (key : Name) : Prop :=
  ∃ p ∈ (s.node i).peers, p.incoming = false ∧ p.targetKey = key ∧ p.verified = true ∧
    ∃ f ∈ s.other (i, p.number), ∃ q ∈ s.peerAt f, q.verified = true

def VerifiedOnce (net : NetworkContext ι) (start : SyncNetwork ι) (events : List (NetworkEvent ι)) (s : SyncNetwork ι) : Prop :=
  ∀ i, ∀ t ∈ (s.node i).targets, ∃ n, ∃ u ∈ runFrom (next net) (events.take n) start, u.TargetVerified i t.key

def twoRoutes : List (NetworkEvent Bool) :=
  [.own false (.start true true), .own true (.start true true), .own true (.connectTo ['a'] ['a'] 1),
    .own true (.connectTo [] ['a'] 1), .connect true 0 false, .connect true 1 false, .own true (.encrypted 0 ['f']),
    .own false (.encrypted 0 ['f']), .own true (.encrypted 1 ['f']), .own false (.encrypted 1 ['f']),
    .own false (.line 0 (helloOf ['b'])), .own true (.line 0 (helloOf ['a'])), .own false (.line 1 (helloOf ['b'])),
    .own true (.line 1 (helloOf ['a'])), .own true (.retryTimeout ['a']), .connect true 2 false,
    .own true (.encrypted 2 ['f']), .own false (.encrypted 2 ['f'])]

instance (s : SyncNetwork ι) (i : ι) (key : Name) : Decidable (s.TargetVerified i key) :=
  have (f : End ι) : Decidable (∃ q ∈ s.peerAt f, q.verified = true) := Option.decidableExistsMem _
  have (p : Peer) : Decidable (∃ f ∈ s.other (i, p.number), ∃ q ∈ s.peerAt f, q.verified = true) := Option.decidableExistsMem _
  inferInstanceAs (Decidable (∃ p ∈ (s.node i).peers, _))

instance (s t : SyncNetwork Bool) : Decidable (s.KeepsVerified t) :=
  inferInstanceAs (Decidable (∀ i, ∀ p ∈ (s.node i).peers, p.verified = true →
    ∃ q ∈ (t.node i).peers, q.number = p.number ∧ q.verified = true))

/-- The newer connection replaces the older one, whose target is tried again and replaces the newer one. -/
theorem verified_peer_replaced : ¬∀ (net : NetworkContext Bool) (start s t : SyncNetwork Bool) (events : List (NetworkEvent Bool))
    (event : NetworkEvent Bool), start.Initial → runFrom (checked (next net) Healthy) events start = some s →
      VerifiedOnce net start events s → s.Healthy event → s.next net event = some t → s.KeepsVerified t := by
  intro h
  have hrun : (runFrom (checked (next twoComputers) Healthy) twoRoutes unstarted).any (fun s =>
      decide (s.Healthy (.own false (.line 2 (helloOf ['b']))) ∧
        (∀ i, ∀ t ∈ (s.node i).targets, i = true ∧ (t.key = ['a'] ∨ t.key = "a:1".toList)) ∧
        ∃ t ∈ s.next twoComputers (.own false (.line 2 (helloOf ['b']))), ¬s.KeepsVerified t)) = true := by
    decide
  obtain ⟨s, hs, hfacts⟩ := (Option.any_eq_true _ _).mp hrun
  obtain ⟨hhealthy, htargets, t, ht, hdropped⟩ := of_decide_eq_true hfacts
  have hfirst : ∃ u ∈ runFrom (next twoComputers) (twoRoutes.take 12) unstarted, u.TargetVerified true ['a'] := by
    decide
  have hsecond : ∃ u ∈ runFrom (next twoComputers) (twoRoutes.take 14) unstarted, u.TargetVerified true "a:1".toList := by
    decide
  apply hdropped
  apply h twoComputers unstarted s t twoRoutes _ ⟨rfl, fun _ => rfl⟩ hs _ hhealthy ht
  intro i target htarget
  obtain ⟨rfl, hkey | hkey⟩ := htargets i target htarget
  · rw [hkey]
    exact ⟨12, hfirst⟩
  · rw [hkey]
    exact ⟨14, hsecond⟩

end SyncNetwork

end InputLeap.Gui
