import InputLeap.Gui.SyncGrowth
import Mathlib.Logic.Function.Basic

/-! Several windows whose settings channels are joined by connections. What one end of a connection writes the other end
reads, line by line and in order. -/

namespace InputLeap.Gui

open InputLeap.Lib

/-- One end of a connection: a computer, and the number of the peer there. -/
abbrev End (ι : Type) := ι × ℕ

/-- The end that connected comes first in a link. -/
structure SyncNetwork (ι : Type) where
  node : ι → SyncService
  links : List (End ι × End ι)

structure NetworkContext (ι : Type) where
  ctx : ι → SyncContext
  /-- The computer that an address leads to. -/
  resolve : Name → ℕ → Option ι

inductive NetworkEvent (ι : Type)
  | own (i : ι) (e : ChannelEvent)
  | connect (i : ι) (number : ℕ) (j : ι)

namespace SyncNetwork

variable {ι : Type} [DecidableEq ι]

section Events

variable (net : NetworkContext ι) (s : SyncNetwork ι)

def peerAt (e : End ι) : Option SyncService.Peer := (s.node e.1).peer e.2

def other (e : End ι) : Option (End ι) :=
  s.links.findSome? fun l => if l.1 = e then some l.2 else if l.2 = e then some l.1 else none

/-- It is the next line of what the other end has written. What an end that has gone had written is not known any more. -/
def Comes (e : End ι) (line : Object) : Prop :=
  ∃ f ∈ s.other e, ∃ p ∈ s.peerAt e, ∀ q ∈ s.peerAt f, q.sent[p.received.length]? = some line

/-- Peers are accepted when another computer connects, and do what needs a connection when they have one. -/
def Carried (i : ι) : ChannelEvent → Prop
  | .acceptIncoming => False
  | .encrypted number _ => s.other (i, number) ≠ none
  | .line number line => s.Comes (i, number) line
  | _ => True

/-- A peer that has no connection yet, and whose target leads to the computer. -/
def LeadsTo (i : ι) (number : ℕ) (j : ι) : Prop :=
  s.other (i, number) = none ∧ ∃ p ∈ s.peerAt (i, number), p.incoming = false ∧
    ∃ t ∈ (s.node i).target p.targetKey, net.resolve t.host t.port = some j

instance (e : End ι) (line : Object) : Decidable (s.Comes e line) :=
  have (f : End ι) (p : SyncService.Peer) : Decidable (∀ q ∈ s.peerAt f, q.sent[p.received.length]? = some line) :=
    Option.decidableForallMem _
  have (f : End ι) : Decidable (∃ p ∈ s.peerAt e, ∀ q ∈ s.peerAt f, q.sent[p.received.length]? = some line) :=
    Option.decidableExistsMem _
  Option.decidableExistsMem _

instance (i : ι) : ∀ e, Decidable (s.Carried i e)
  | .acceptIncoming => .isFalse id
  | .encrypted number _ => inferInstanceAs (Decidable (s.other (i, number) ≠ none))
  | .line number line => inferInstanceAs (Decidable (s.Comes (i, number) line))
  | .start .. | .stop | .setLocalInfo .. | .setDocument .. | .broadcastTimeout | .request .. | .requestTimeout _ | .answer ..
  | .connectTo .. | .forget _ | .retryNow | .retryTimeout _ | .reevaluateAccess | .helloTimeout _ | .disconnected _ => .isTrue trivial

instance (i : ι) (number : ℕ) (j : ι) : Decidable (s.LeadsTo net i number j) :=
  have (p : SyncService.Peer) : Decidable (∃ t ∈ (s.node i).target p.targetKey, net.resolve t.host t.port = some j) :=
    Option.decidableExistsMem _
  have : Decidable (∃ p ∈ s.peerAt (i, number), p.incoming = false ∧
      ∃ t ∈ (s.node i).target p.targetKey, net.resolve t.host t.port = some j) :=
    Option.decidableExistsMem _
  inferInstanceAs (Decidable (_ ∧ _))

def inFlight (e f : End ι) : List Object :=
  ((s.peerAt e).bind fun p => (s.peerAt f).map fun q => p.sent.drop q.received.length).getD []

def setNode (i : ι) (t : SyncService) : SyncNetwork ι := { s with node := Function.update s.node i t }

def next : NetworkEvent ι → Option (SyncNetwork ι)
  | .own i e => if s.Carried i e then ((s.node i).next (net.ctx i) e).map (s.setNode i) else none
  | .connect i number j =>
    if s.LeadsTo net i number j then
      ((s.node j).next (net.ctx j) .acceptIncoming).map fun t =>
        { s.setNode j t with links := s.links ++ [((i, number), (j, (s.node j).connections))] }
    else none

def Initial : Prop := s.links = [] ∧ ∀ i, (s.node i).Initial

end Events

section Order

open SyncService

variable {net : NetworkContext ι} {s t : SyncNetwork ι} {e f : End ι} {p q : Peer}

lemma mem_of_other (h : s.other e = some f) : (e, f) ∈ s.links ∨ (f, e) ∈ s.links := by
  obtain ⟨l, hl, hends⟩ := List.exists_of_findSome?_eq_some h
  split_ifs at hends with hfirst hsecond
  · obtain rfl := Option.some.inj hends
    exact .inl (hfirst ▸ hl)
  · obtain rfl := Option.some.inj hends
    exact .inr (hsecond ▸ hl)

/-- Each end has read the start of what the other one wrote, and an end that has no connection nothing. -/
structure Ordered (s : SyncNetwork ι) : Prop where
  numbered : ∀ i, Numbered (s.node i)
  known : ∀ l ∈ s.links, l.1.2 < (s.node l.1.1).connections ∧ l.2.2 < (s.node l.2.1).connections
  unheard : ∀ e, s.other e = none → ∀ p ∈ s.peerAt e, p.received = []
  order : ∀ e f, s.other e = some f → ∀ p ∈ s.peerAt e, ∀ q ∈ s.peerAt f, p.received <+: q.sent

lemma Ordered.other_known (h : Ordered s) (hother : s.other e = some f) : f.2 < (s.node f.1).connections := by
  rcases mem_of_other hother with hlink | hlink
  · exact (h.known _ hlink).2
  · exact (h.known _ hlink).1

lemma Ordered.peerAt (h : Ordered s) (hp : p ∈ (s.node e.1).peers) (hnumber : p.number = e.2) : s.peerAt e = some p := by
  cases hfind : s.peerAt e with
  | none => exact absurd (decide_eq_true hnumber) (List.find?_eq_none.mp hfind p hp)
  | some q =>
    obtain ⟨hq, hnumber'⟩ := mem_of_peer hfind
    rw [(h.numbered e.1).eq hp hq (hnumber.trans hnumber'.symm)]

lemma Ordered.kept (h : Ordered s) (hlinks : t.links = s.links) (hnodes : ∀ i, Kept (s.node i) (t.node i)) : Ordered t := by
  have hother (e : End ι) : t.other e = s.other e := by rw [other, other, hlinks]
  have hcomes {e : End ι} {q : Peer} (hq : q ∈ t.peerAt e) :
      (∃ p ∈ s.peerAt e, q.received = p.received ∧ p.sent <+: q.sent) ∨ (s.node e.1).connections ≤ e.2 ∧ q.received = [] := by
    obtain ⟨hmem, hnumber⟩ := mem_of_peer hq
    rcases (hnodes e.1).peers (h.numbered e.1) q hmem with ⟨p, hp, hsame, hkept⟩ | ⟨hnew, hreceived⟩
    · exact .inl ⟨p, h.peerAt hp (hsame.symm.trans hnumber), hkept⟩
    · exact .inr ⟨hnumber ▸ hnew, hreceived⟩
  constructor
  · exact fun i => (hnodes i).numbered (h.numbered i)
  · rw [hlinks]
    intro l hl
    exact ⟨(h.known l hl).1.trans_le (hnodes _).connections, (h.known l hl).2.trans_le (hnodes _).connections⟩
  · intro e hnone q hq
    rw [hother] at hnone
    rcases hcomes hq with ⟨p, hp, hreceived, -⟩ | ⟨-, hreceived⟩
    · exact hreceived.trans (h.unheard e hnone p hp)
    · exact hreceived
  · intro e f hlink q hq q' hq'
    rw [hother] at hlink
    rcases hcomes hq with ⟨p, hp, hreceived, -⟩ | ⟨-, hreceived⟩
    · rcases hcomes hq' with ⟨p', hp', -, hsent⟩ | ⟨hnew, -⟩
      · rw [hreceived]
        exact (h.order e f hlink p hp p' hp').trans hsent
      · exact absurd (h.other_known hlink) hnew.not_gt
    · rw [hreceived]
      exact List.nil_prefix

lemma Ordered.link (h : Ordered s) {l : End ι × End ι}
    (hknown : l.1.2 < (s.node l.1.1).connections ∧ l.2.2 < (s.node l.2.1).connections) :
    Ordered { s with links := s.links ++ [l] } := by
  have hother (e : End ι) : SyncNetwork.other { s with links := s.links ++ [l] } e =
      (s.other e).or (if l.1 = e then some l.2 else if l.2 = e then some l.1 else none) := by
    rw [other, other, List.findSome?_append, List.findSome?_singleton]
  constructor
  · exact h.numbered
  · exact List.forall_mem_append.mpr ⟨h.known, List.forall_mem_singleton.mpr hknown⟩
  · intro e hnone
    rw [hother] at hnone
    exact h.unheard e (Option.or_eq_none_iff.mp hnone).1
  · intro e f hsome p hp q hq
    rw [hother] at hsome
    cases hlinked : s.other e with
    | none =>
      rw [h.unheard e hlinked p hp]
      exact List.nil_prefix
    | some g =>
      rw [hlinked] at hsome
      obtain rfl := Option.some.inj hsome
      exact h.order e g hlinked p hp q hq

lemma node_setNode (s : SyncNetwork ι) (i j : ι) (u : SyncService) : (s.setNode i u).node j = if j = i then u else s.node j :=
  Function.update_apply _ _ _ _

lemma Ordered.reads (h : Ordered s) {i : ι} {number : ℕ} {line : Object} (hcomes : s.Comes (i, number) line) :
    Ordered (s.setNode i ((s.node i).modifyPeer number (reads line))) := by
  have hread {e : End ι} {q : Peer} (hq : q ∈ (s.setNode i ((s.node i).modifyPeer number (SyncService.reads line))).peerAt e) :
      ∃ p ∈ s.peerAt e, q.sent = p.sent ∧ (q.received = p.received ∨ e = (i, number) ∧ q.received = p.received ++ [line]) := by
    obtain ⟨hmem, hnumber⟩ := mem_of_peer hq
    rw [node_setNode] at hmem
    split_ifs at hmem with hnode
    · obtain ⟨p, hp, rfl⟩ := List.mem_map.mp hmem
      subst hnode
      split_ifs at hnumber ⊢ with hself
      · exact ⟨p, h.peerAt hp hnumber, rfl, .inr ⟨Prod.ext rfl (hnumber.symm.trans hself), rfl⟩⟩
      · exact ⟨p, h.peerAt hp hnumber, rfl, .inl rfl⟩
    · exact ⟨q, h.peerAt hmem hnumber, rfl, .inl rfl⟩
  have hconnections (j : ι) : ((s.setNode i ((s.node i).modifyPeer number (SyncService.reads line))).node j).connections =
      (s.node j).connections := by
    rw [node_setNode]
    split_ifs with hnode
    · rw [hnode]
      rfl
    · rfl
  obtain ⟨g, hg, r, hr, hnext⟩ := hcomes
  constructor
  · intro j
    rw [node_setNode]
    split_ifs
    · exact (h.numbered i).modifyPeer number fun _ => rfl
    · exact h.numbered j
  · intro l hl
    rw [hconnections, hconnections]
    exact h.known l hl
  · intro e hnone q hq
    obtain ⟨p, hp, -, hreceived | ⟨rfl, -⟩⟩ := hread hq
    · exact hreceived.trans (h.unheard e hnone p hp)
    · exact absurd (hg.symm.trans hnone) (Option.some_ne_none g)
  · intro e f hlink q hq q' hq'
    obtain ⟨p', hp', hsent, -⟩ := hread hq'
    rw [hsent]
    obtain ⟨p, hp, -, hreceived | ⟨rfl, hreceived⟩⟩ := hread hq
    · rw [hreceived]
      exact h.order e f hlink p hp p' hp'
    · obtain rfl := Option.some.inj (hg.symm.trans hlink)
      obtain rfl := Option.some.inj (hr.symm.trans hp)
      obtain ⟨rest, hrest⟩ := h.order _ _ hlink r hp p' hp'
      have hline := hnext p' hp'
      rw [← hrest, List.getElem?_append_right (Nat.le_refl _), Nat.sub_self] at hline
      rw [hreceived, ← hrest]
      apply (List.prefix_append_right_inj _).mpr
      cases rest with
      | nil => cases hline
      | cons first rest =>
        obtain rfl := Option.some.inj hline
        exact List.prefix_append [first] rest

lemma Ordered.setNode (h : Ordered s) {i : ι} {u : SyncService} (hkept : Kept (s.node i) u) : Ordered (s.setNode i u) := by
  refine h.kept (t := s.setNode i u) rfl fun j => ?_
  rw [node_setNode]
  split_ifs with hnode
  · rw [hnode]
    exact hkept
  · exact .refl _

lemma Ordered.next {event : NetworkEvent ι} (h : Ordered s) (hnext : s.next net event = some t) : Ordered t := by
  cases event with
  | own i event =>
    obtain ⟨hcarried, hmap⟩ := Option.ite_none_right_eq_some.mp hnext
    obtain ⟨u, hu, rfl⟩ := Option.map_eq_some_iff.mp hmap
    rcases kept_next hu with hkept | ⟨p, line, rfl, hp, hkept⟩
    · exact h.setNode hkept
    · have hread := (h.reads hcarried).setNode (i := i) (u := u) (by rw [node_setNode, if_pos rfl]; exact hkept)
      rw [SyncNetwork.setNode, SyncNetwork.setNode, Function.update_idem] at hread
      exact hread
  | connect i number j =>
    obtain ⟨hleads, hmap⟩ := Option.ite_none_right_eq_some.mp hnext
    obtain ⟨u, hu, rfl⟩ := Option.map_eq_some_iff.mp hmap
    obtain ⟨-, p, hp, -⟩ := hleads
    obtain ⟨-, hu⟩ := Option.ite_none_right_eq_some.mp hu
    obtain rfl := Option.some.inj hu
    have hkept : Kept (s.node j) (s.node j).acceptIncoming := .of_grown (.attach _ _ _ _)
    apply (h.setNode hkept).link
    obtain ⟨hmem, hnumber⟩ := mem_of_peer hp
    have hbelow := (h.numbered i).below _ (List.mem_map_of_mem hmem)
    rw [hnumber] at hbelow
    have hgrows (k : ι) : (s.node k).connections ≤ ((s.setNode j (s.node j).acceptIncoming).node k).connections := by
      rw [node_setNode]
      split_ifs with hnode
      · rw [hnode]
        exact Nat.le_succ _
      · exact Nat.le_refl _
    refine ⟨hbelow.trans_le (hgrows i), ?_⟩
    rw [node_setNode, if_pos rfl]
    exact Nat.lt_succ_self _

lemma Ordered.initial (h : s.Initial) : Ordered s := by
  obtain ⟨hlinks, hnodes⟩ := h
  have hpeers (i : ι) : (s.node i).peers = [] := congrArg SyncService.peers (hnodes i)
  have hnone (e : End ι) : s.peerAt e = none := by
    rw [SyncNetwork.peerAt, SyncService.peer, hpeers]
    rfl
  constructor
  · intro i
    constructor
    · rw [hpeers]
      exact List.forall_mem_nil _
    · rw [hpeers]
      exact List.nodup_nil
  · rw [hlinks]
    exact List.forall_mem_nil _
  · intro e _ p hp
    rw [hnone] at hp
    cases hp
  · intro e _ _ p hp
    rw [hnone] at hp
    cases hp

end Order

end SyncNetwork

end InputLeap.Gui
