import InputLeap.Gui.SyncSteps

/-! What a peer may do follows the trust check, as long as no peer takes another name that is trusted otherwise or that
another peer has. -/

namespace InputLeap.Gui

open InputLeap.Lib

namespace SyncService

variable {ctx : SyncContext} {s t : SyncService} {p q : Peer}

/-- Verified peers have the access that the trust check gives them, and names that differ without case. -/
structure AccessFollows (ctx : SyncContext) (s : SyncService) : Prop where
  access : ∀ p ∈ s.peers, p.verified = true → p.access = accessOf ctx p p.name
  atLeast : ∀ p ∈ s.peers, p.verified = true → Access.read ≤ p.access
  names : s.peers.Pairwise fun p q => p.verified = true → q.verified = true → ctx.qt.sameName p.name q.name = false

structure Standing where
  number : ℕ
  verified : Bool
  access : ℤ
  name : Name
  fingerprint : Name
  incoming : Bool

def Peer.standing (p : Peer) : Standing := ⟨p.number, p.verified, p.access, p.name, p.fingerprint, p.incoming⟩

def Standing.Follows (ctx : SyncContext) (a : Standing) : Prop :=
  a.verified = true →
    a.access = qBound Access.none (ctx.trust a.fingerprint a.name a.incoming) Access.write ∧ Access.read ≤ a.access ∧
      a.fingerprint ≠ []

def Standing.Apart (ctx : SyncContext) (a b : Standing) : Prop :=
  a.number < b.number ∧ (a.verified = true → b.verified = true → ctx.qt.sameName a.name b.name = false)

structure StandingInv (ctx : SyncContext) (connections : ℕ) (as : List Standing) : Prop where
  below : ∀ a ∈ as, a.number < connections
  follows : ∀ a ∈ as, a.Follows ctx
  apart : as.Pairwise (Standing.Apart ctx)

section Standings

variable {c : ℕ} {as : List Standing}

lemma sameName_comm (qt : Qt) (a b : Name) : qt.sameName a b = qt.sameName b a := by
  rw [Qt.sameName, Qt.sameName]
  exact decide_eq_decide.mpr eq_comm

lemma StandingInv.filter (h : StandingInv ctx c as) (keep : Standing → Bool) : StandingInv ctx c (as.filter keep) where
  below a ha := h.below a (List.mem_of_mem_filter ha)
  follows a ha := h.follows a (List.mem_of_mem_filter ha)
  apart := h.apart.filter keep

lemma StandingInv.append (h : StandingInv ctx c as) {a : Standing} (hnumber : a.number = c) (ha : a.verified = false) :
    StandingInv ctx (c + 1) (as ++ [a]) := by
  constructor
  · intro b hb
    rcases List.mem_append.mp hb with hb | hb
    · exact (h.below b hb).trans (Nat.lt_succ_self c)
    · rw [List.mem_singleton.mp hb, hnumber]
      exact Nat.lt_succ_self c
  · intro b hb
    rcases List.mem_append.mp hb with hb | hb
    · exact h.follows b hb
    · intro hverified
      rw [List.mem_singleton.mp hb, ha] at hverified
      cases hverified
  · apply List.pairwise_append.mpr
    refine ⟨h.apart, List.pairwise_singleton _ _, fun b hb d hd => ?_⟩
    rw [List.mem_singleton.mp hd]
    refine ⟨(h.below b hb).trans_eq hnumber.symm, fun _ hverified => ?_⟩
    rw [ha] at hverified
    cases hverified

lemma StandingInv.change (h : StandingInv ctx c as) {n : ℕ} {g : Standing → Standing}
    (hnumber : ∀ a, (g a).number = a.number) (hfollows : ∀ a ∈ as, a.number = n → (g a).Follows ctx)
    (hapart : ∀ a ∈ as, a.number = n → ∀ b ∈ as, b.number ≠ n → (g a).verified = true → b.verified = true →
      ctx.qt.sameName (g a).name b.name = false) :
    StandingInv ctx c (as.map fun a => if a.number = n then g a else a) := by
  constructor
  · rw [List.forall_mem_map]
    intro a ha
    split_ifs
    · exact (hnumber a).trans_lt (h.below a ha)
    · exact h.below a ha
  · rw [List.forall_mem_map]
    intro a ha
    split_ifs with hn
    · exact hfollows a ha hn
    · exact h.follows a ha
  · rw [List.pairwise_map]
    apply h.apart.imp_of_mem
    intro a b ha hb hab
    split_ifs with hna hnb hnb
    · exact absurd (hna.trans hnb.symm) hab.1.ne
    · exact ⟨(hnumber a).trans_lt hab.1, hapart a ha hna b hb hnb⟩
    · refine ⟨hab.1.trans_eq (hnumber b).symm, fun hverified hverified' => ?_⟩
      rw [sameName_comm]
      exact hapart b hb hnb a ha hna hverified' hverified
    · exact hab

lemma StandingInv.distinct (h : StandingInv ctx c as) {a b : Standing} (ha : a ∈ as) (hb : b ∈ as)
    (hnumber : a.number ≠ b.number) (hverified : a.verified = true) (hverified' : b.verified = true) :
    ctx.qt.sameName a.name b.name = false := by
  have hsymm : Std.Symm fun a b : Standing => a.verified = true → b.verified = true → ctx.qt.sameName a.name b.name = false :=
    ⟨fun a b hab ha hb => (sameName_comm ctx.qt b.name a.name).trans (hab hb ha)⟩
  have hne : a ≠ b := fun hab => hnumber (congrArg Standing.number hab)
  exact (h.apart.imp fun hab => hab.2).forall ha hb hne hverified hverified'

end Standings

def Standings (ctx : SyncContext) (s : SyncService) : Prop := StandingInv ctx s.connections (s.peers.map Peer.standing)

lemma Standings.accessFollows (h : Standings ctx s) : AccessFollows ctx s := by
  have hfollows (p : Peer) (hp : p ∈ s.peers) := h.follows p.standing (List.mem_map_of_mem hp)
  refine ⟨fun p hp hverified => (hfollows p hp hverified).1, fun p hp hverified => (hfollows p hp hverified).2.1, ?_⟩
  exact (List.pairwise_map.mp h.apart).imp fun hab => hab.2

section Steps

lemma standing_sent (p : Peer) (lines : List Object) : Peer.standing { p with sent := lines } = p.standing := rfl

lemma Standings.congr (h : Standings ctx s) (hconnections : t.connections = s.connections)
    (hpeers : t.peers.map Peer.standing = s.peers.map Peer.standing) : Standings ctx t := by
  rwa [Standings, hconnections, hpeers]

lemma Standings.talked {ok : ℕ → Object → Prop} (h : Standings ctx s) (htalked : Talked ok s t) : Standings ctx t :=
  h.congr htalked.connections (htalked.map_peers _ standing_sent)

lemma Standings.modifyPeer (h : Standings ctx s) (number : ℕ) {f : Peer → Peer} (hf : ∀ p, (f p).standing = p.standing) :
    Standings ctx (s.modifyPeer number f) := h.congr rfl (map_modifyPeer s number hf)

lemma Standings.dropPeer (h : Standings ctx s) (p : Peer) : Standings ctx (s.dropPeer ctx p) := by
  rw [Standings, connections_dropPeer, map_dropPeer standing_sent]
  have hfilter := h.filter fun a => decide (a.number ≠ p.number)
  rwa [List.filter_map] at hfilter

lemma Standings.dropWhere (h : Standings ctx s) (which : Peer → Bool) : Standings ctx (s.dropWhere ctx which) := by
  rw [SyncService.dropWhere]
  split
  · exact h
  · exact h.dropPeer _

lemma Standings.attach (h : Standings ctx s) (incoming : Bool) (targetKey targetName : Name) :
    Standings ctx (s.attach incoming targetKey targetName) := by
  rw [Standings, SyncService.attach, List.map_append]
  exact h.append rfl rfl

lemma Standings.attempt (h : Standings ctx s) (key : Name) : Standings ctx (s.attempt key) := by
  rcases attempt_cases s key with ⟨hsame, -⟩ | ⟨t, -, hattempt⟩
  · rwa [hsame]
  · rw [hattempt]
    exact (h.congr rfl rfl).attach _ _ _

lemma Standings.foldl {α : Type} {f : SyncService → α → SyncService} (hf : ∀ s a, Standings ctx s → Standings ctx (f s a))
    (as : List α) {s : SyncService} (h : Standings ctx s) : Standings ctx (as.foldl f s) := by
  induction as generalizing s with
  | nil => exact h
  | cons a as ih => exact ih (hf s a h)

lemma Standings.connectTo (h : Standings ctx s) (name host : Name) (port : ℕ) :
    Standings ctx (s.connectTo ctx name host port) := by
  unfold SyncService.connectTo
  split
  · exact h
  · dsimp only
    split
    · exact h
    · apply Standings.attempt
      apply Standings.dropWhere
      rw [setTarget]
      split
      · exact h.congr rfl rfl
      · exact h.congr rfl rfl

lemma Standings.retryNow (h : Standings ctx s) : Standings ctx s.retryNow := by
  apply Standings.foldl _ _ h
  intro s key h
  rw [retryTarget]
  split_ifs
  · exact h
  · exact (h.congr (t := s.modifyTarget key fun t => { t with retryMs := 0 }) rfl rfl).attempt key

lemma Standings.broadcast (h : Standings ctx s) : Standings ctx s.broadcast := by
  have hcleared : Standings ctx { s with dirty := [], broadcastTimer := false } := h
  exact hcleared.talked (Talked.foldl (talked_publish s.dirty) _ _)

lemma Standings.setLocalInfo (h : Standings ctx s) (name role version : Name) :
    Standings ctx (s.setLocalInfo name role version) := by
  have hset : Standings ctx { s with name := name, role := role, version := version } := h
  unfold SyncService.setLocalInfo
  split_ifs
  · apply hset.talked
    apply Talked.foldl
    intro t number
    exact talked_sendDocument t number _ _
  · exact hset

lemma Standings.of_empty (h : s.peers = []) : Standings ctx s := by
  rw [Standings, h]
  exact ⟨List.forall_mem_nil _, List.forall_mem_nil _, List.Pairwise.nil⟩

lemma Standings.reevaluate (h : Standings ctx s) (number : ℕ) : SyncService.reevaluate ctx s number = s := by
  rw [SyncService.reevaluate]
  cases hp : s.peer number with
  | none => rfl
  | some p =>
    have hquiet : p.verified = false ∨ accessOf ctx p p.name = p.access := by
      rw [or_iff_not_imp_left, Bool.not_eq_false]
      intro hverified
      exact (h.accessFollows.access p (List.mem_of_find?_eq_some hp) hverified).symm
    exact if_pos hquiet

lemma Standings.reevaluateAccess (h : Standings ctx s) : Standings ctx (s.reevaluateAccess ctx) := by
  apply Standings.foldl _ _ h
  intro s number h
  rwa [h.reevaluate]

section Lines

lemma Standings.unique (h : Standings ctx s) (hp : p ∈ s.peers) (hq : q ∈ s.peers) (hnumber : q.number = p.number) :
    q = p := by
  have hnodup : (s.peers.map Peer.number).Nodup := by
    apply List.pairwise_map.mpr
    exact (List.pairwise_map.mp h.apart).imp fun hab => hab.1.ne
  exact List.inj_on_of_nodup_map hnodup hq hp hnumber

/-- The peer takes a name that is trusted as before and that no other peer has. A new one may have the name of another,
which it replaces, in the same spelling. -/
def Known (ctx : SyncContext) (s : SyncService) (p : Peer) (name : Name) : Prop :=
  if p.verified then
    name ≠ [] → accessOf ctx p name = p.access ∧
      ∀ q ∈ s.peers, q.number ≠ p.number → q.verified = true → ctx.qt.sameName q.name name = false
  else
    refuses ctx { p with name := name } = false →
      ∀ q ∈ s.peers, q.verified = true → ctx.qt.sameName q.name name = true → q.name = name

lemma standings_modifyPeer {f : Peer → Peer} {g : Standing → Standing} (hg : ∀ p, (f p).standing = g p.standing)
    (s : SyncService) (number : ℕ) : (s.modifyPeer number f).peers.map Peer.standing =
      (s.peers.map Peer.standing).map fun a => if a.number = number then g a else a := by
  rw [SyncService.modifyPeer, List.map_map, List.map_map]
  apply List.map_congr_left
  intro p _
  rw [Function.comp_apply, Function.comp_apply]
  change _ = if p.number = number then _ else _
  split_ifs
  · exact hg p
  · rfl

/-- Of the peers with the name without case only one may be verified, and it goes. -/
lemma Standings.dropNamesake (h : Standings ctx s) {number : ℕ} {name : Name}
    (hknown : ∀ q ∈ s.peers, q.number ≠ number → q.verified = true → ctx.qt.sameName q.name name = true → q.name = name)
    {a : Standing} (ha : a ∈ (s.dropWhere ctx fun q =>
      decide (q.number ≠ number) && q.verified && decide (q.name = name)).peers.map Peer.standing) :
    a ∈ s.peers.map Peer.standing ∧
      (a.number ≠ number → a.verified = true → ctx.qt.sameName a.name name = false) := by
  rw [SyncService.dropWhere] at ha
  split at ha
  · rename_i hnone
    refine ⟨ha, fun hother hverified => ?_⟩
    obtain ⟨q, hq, rfl⟩ := List.mem_map.mp ha
    rw [Bool.eq_false_iff]
    intro hsame
    have hname := hknown q hq hother hverified hsame
    have hother' : q.number ≠ number := hother
    have hverified' : q.verified = true := hverified
    have hnot := List.find?_eq_none.mp hnone q hq
    simp [hother', hverified', hname] at hnot
  · rename_i r hfound
    have hr := List.find?_some hfound
    rw [Bool.and_eq_true, Bool.and_eq_true, decide_eq_true_eq, decide_eq_true_eq] at hr
    obtain ⟨⟨-, hverified'⟩, hname'⟩ := hr
    rw [map_dropPeer standing_sent] at ha
    obtain ⟨q, hq, rfl⟩ := List.mem_map.mp ha
    rw [List.mem_filter, decide_eq_true_eq] at hq
    refine ⟨List.mem_map_of_mem hq.1, fun hother hverified => ?_⟩
    rw [← hname']
    exact h.distinct (List.mem_map_of_mem hq.1) (List.mem_map_of_mem (List.mem_of_find?_eq_some hfound)) hq.2
      hverified hverified'

variable (h : Standings ctx s) (hp : p ∈ s.peers)

include h hp

lemma Standings.renamePeer {o : Object} (hverified : p.verified = true) (hknown : Known ctx s p (o.string "name")) :
    Standings ctx (s.renamePeer p o) := by
  rw [Known, if_pos hverified] at hknown
  have hstanding (a : Standing) (ha : a ∈ s.peers.map Peer.standing) (hnumber : a.number = p.number) : a = p.standing := by
    obtain ⟨q, hq, rfl⟩ := List.mem_map.mp ha
    rw [h.unique hp hq hnumber]
  have hfollows := h.follows p.standing (List.mem_map_of_mem hp) hverified
  rw [Standings, SyncService.renamePeer, standings_modifyPeer
    (g := fun a => { a with name := if o.string "name" = [] then a.name else o.string "name" }) fun p => rfl]
  apply h.change
  · exact fun a => rfl
  · intro a ha hnumber _
    rw [hstanding a ha hnumber]
    dsimp only
    split_ifs with hname
    · exact hfollows
    · exact ⟨(hknown hname).1.symm, hfollows.2⟩
  · intro a ha hnumber b hb hother _ hverified'
    obtain ⟨q, hq, rfl⟩ := List.mem_map.mp hb
    rw [hstanding a ha hnumber]
    dsimp only
    rw [sameName_comm]
    split_ifs with hname
    · exact h.distinct (List.mem_map_of_mem hq) (List.mem_map_of_mem hp) hother hverified' hverified
    · exact (hknown hname).2 q hq hother hverified'

/-- Of the verified peers only the one that is replaced may have the name of the new one. -/
lemma Standings.welcome {o : Object} (hencrypted : p.fingerprint ≠ []) (hunverified : p.verified = false) (hknown : Known ctx s p p.name)
    (hrefuses : refuses ctx p = false) : Standings ctx (s.welcome ctx p o) := by
  have htrust : Access.none < ctx.trust p.fingerprint p.name p.incoming := by
    rw [refuses, decide_eq_false_iff_not, not_or, not_or, not_le] at hrefuses
    exact hrefuses.2.1
  rw [Known, if_neg (by simp [hunverified])] at hknown
  have hknown := hknown hrefuses
  -- the access is set
  let g : Standing → Standing := fun a => { a with access := accessOf ctx p p.name }
  let s₁ := s.modifyPeer p.number fun q => { q with access := accessOf ctx p p.name, protocol := o.int "protocol" 1 }
  have hstanding (a : Standing) (ha : a ∈ s₁.peers.map Peer.standing) (hnumber : a.number = p.number) :
      a = g p.standing := by
    obtain ⟨r, hr, rfl⟩ := List.mem_map.mp ha
    obtain ⟨q, hq, rfl⟩ := List.mem_map.mp hr
    by_cases hnumber' : q.number = p.number
    · rw [if_pos hnumber', h.unique hp hq hnumber']
      rfl
    · rw [if_neg hnumber'] at hnumber
      exact absurd hnumber hnumber'
  have hothers (q : Peer) (hq : q ∈ s₁.peers) (hother : q.number ≠ p.number) : q ∈ s.peers := by
    obtain ⟨r, hr, rfl⟩ := List.mem_map.mp hq
    by_cases hnumber : r.number = p.number
    · rw [if_pos hnumber] at hother
      exact absurd hnumber hother
    · rwa [if_neg hnumber]
  have h₁ : Standings ctx s₁ := by
    rw [Standings, standings_modifyPeer (g := g) fun p => rfl]
    apply h.change
    · exact fun a => rfl
    · intro a ha hnumber hverified
      obtain ⟨q, hq, rfl⟩ := List.mem_map.mp ha
      have hq' : q = p := h.unique hp hq hnumber
      rw [hq'] at hverified
      exact absurd (hunverified.symm.trans hverified) Bool.false_ne_true
    · intro a ha hnumber b hb hother hverified
      obtain ⟨q, hq, rfl⟩ := List.mem_map.mp ha
      have hq' : q = p := h.unique hp hq hnumber
      rw [hq'] at hverified
      exact absurd (hunverified.symm.trans hverified) Bool.false_ne_true
  -- then the peer with the same name goes
  let s₂ := s₁.dropWhere ctx fun q => decide (q.number ≠ p.number) && q.verified && decide (q.name = p.name)
  have h₂ : Standings ctx s₂ := h₁.dropWhere _
  have hkept (a : Standing) (ha : a ∈ s₂.peers.map Peer.standing) := h₁.dropNamesake
    (fun q hq hother hverified hsame => hknown q (hothers q hq hother) hverified hsame) ha
  -- and the new one is verified
  have h₃ : Standings ctx (s₂.modifyPeer p.number fun q => { q with verified := true, helloTimer := false }) := by
    rw [Standings, standings_modifyPeer (g := fun a => { a with verified := true }) fun p => rfl]
    apply h₂.change
    · exact fun a => rfl
    · intro a ha hnumber _
      rw [hstanding a (hkept a ha).1 hnumber]
      refine ⟨rfl, ?_, hencrypted⟩
      change 0 < ctx.trust p.fingerprint p.name p.incoming at htrust
      change 1 ≤ qBound 0 (ctx.trust p.fingerprint p.name p.incoming) 2
      rw [qBound]
      omega
    · intro a ha hnumber b hb hother _ hverified
      rw [hstanding a (hkept a ha).1 hnumber]
      exact (sameName_comm ctx.qt p.name b.name).trans ((hkept b hb).2 hother hverified)
  exact (h₃.talked (talked_sendDocument _ _ _ _)).talked (talked_sendAll _ _)

lemma Standings.greet {o : Object} (hencrypted : p.fingerprint ≠ []) (hunverified : p.verified = false) (hknown : Known ctx s p (o.string "name")) :
    Standings ctx (s.greet ctx p o) := by
  let s₁ := s.modifyPeer p.number fun p => introduced p o
  have hothers (q : Peer) (hq : q ∈ s₁.peers) (hverified : q.verified = true) : q ∈ s.peers := by
    obtain ⟨r, hr, rfl⟩ := List.mem_map.mp hq
    by_cases hnumber : r.number = p.number
    · rw [if_pos hnumber, h.unique hp hr hnumber] at hverified
      exact absurd (hunverified.symm.trans hverified) Bool.false_ne_true
    · rwa [if_neg hnumber]
  have h₁ : Standings ctx s₁ := by
    rw [Standings, standings_modifyPeer (g := fun a => { a with name := o.string "name" }) fun p => rfl]
    apply h.change
    · exact fun a => rfl
    · intro a ha hnumber hverified
      obtain ⟨q, hq, rfl⟩ := List.mem_map.mp ha
      rw [h.unique hp hq hnumber] at hverified
      exact absurd (hunverified.symm.trans hverified) Bool.false_ne_true
    · intro a ha hnumber b hb hother hverified
      obtain ⟨q, hq, rfl⟩ := List.mem_map.mp ha
      rw [h.unique hp hq hnumber] at hverified
      exact absurd (hunverified.symm.trans hverified) Bool.false_ne_true
  rw [Known, if_neg (by simp [hunverified])] at hknown
  have hknown₁ : Known ctx s₁ (introduced p o) (introduced p o).name := by
    have hnot : (introduced p o).verified = false := hunverified
    rw [Known, if_neg (by simp [hnot])]
    exact fun hrefuses q hq hverified hsame => hknown hrefuses q (hothers q hq hverified) hverified hsame
  rw [SyncService.greet]
  split_ifs with hrefuses
  · exact h₁.dropPeer _
  · exact h₁.welcome (mem_modifyPeer hp) hencrypted hunverified hknown₁ (by simpa using hrefuses)

lemma Standings.handleKind {kind : Name} {o : Object} (hencrypted : p.fingerprint ≠ [])
    (hknown : kind = "hello".toList → Known ctx s p (o.string "name")) : Standings ctx (s.handleKind ctx p kind o) := by
  rw [SyncService.handleKind]
  split_ifs with hhello hverified
  · exact h.renamePeer hp hverified (hknown hhello)
  · exact h.greet hp hencrypted (by simpa using hverified) (hknown hhello)
  · exact h
  · exact h.modifyPeer _ fun p => rfl
  · exact h.talked (talked_finishPending _ _ _ _)
  · split
    · rw [handleRequest]
      split_ifs
      · exact h
      · exact h.talked (talked_sendDocument _ _ _ _)
    · exact h.modifyPeer _ fun p => rfl

lemma Standings.handleLine {line : Object} (hencrypted : p.fingerprint ≠ [])
    (hknown : line.string "type" = "hello".toList → Known ctx s p ((line.remove "type").string "name")) :
    Standings ctx (s.handleLine ctx p line) := by
  have h₁ : Standings ctx (s.modifyPeer p.number (reads line)) := h.modifyPeer _ fun p => rfl
  apply h₁.handleKind (mem_modifyPeer hp) hencrypted
  intro hhello
  have hknown := hknown hhello
  have hmem (q : Peer) (hq : q ∈ (s.modifyPeer p.number (reads line)).peers) : ∃ r ∈ s.peers, r.standing = q.standing := by
    obtain ⟨r, hr, rfl⟩ := List.mem_map.mp hq
    refine ⟨r, hr, ?_⟩
    split_ifs <;> rfl
  have hsame {r q : Peer} (h : r.standing = q.standing) : r.number = q.number ∧ r.verified = q.verified ∧ r.name = q.name :=
    ⟨congrArg Standing.number h, congrArg Standing.verified h, congrArg Standing.name h⟩
  rw [Known] at hknown ⊢
  by_cases hverified : p.verified = true
  · rw [if_pos hverified] at hknown
    rw [if_pos (show (reads line p).verified = true from hverified)]
    intro hname
    refine ⟨(hknown hname).1, fun q hq hother hverified' => ?_⟩
    obtain ⟨r, hr, hrq⟩ := hmem q hq
    rw [← (hsame hrq).2.2]
    exact (hknown hname).2 r hr ((hsame hrq).1.trans_ne hother) ((hsame hrq).2.1.trans hverified')
  · rw [if_neg hverified] at hknown
    rw [if_neg (show ¬(reads line p).verified = true from hverified)]
    intro hrefuses q hq hverified' hname
    obtain ⟨r, hr, hrq⟩ := hmem q hq
    rw [← (hsame hrq).2.2] at hname ⊢
    exact hknown hrefuses r hr ((hsame hrq).2.1.trans hverified') hname

lemma Standings.onEncrypted (hfresh : p.fingerprint = []) (fingerprint : Name) :
    Standings ctx (s.onEncrypted ctx p fingerprint) := by
  rw [SyncService.onEncrypted]
  split_ifs
  · exact h.dropPeer p
  · have hunverified (a : Standing) (ha : a ∈ s.peers.map Peer.standing) (hnumber : a.number = p.number) :
        a.verified = false := by
      obtain ⟨q, hq, rfl⟩ := List.mem_map.mp ha
      rw [h.unique hp hq hnumber, Bool.eq_false_iff]
      intro hverified
      exact (h.follows p.standing (List.mem_map_of_mem hp) hverified).2.2 hfresh
    have h₁ : Standings ctx (s.modifyPeer p.number fun p => { p with fingerprint := fingerprint }) := by
      rw [Standings, standings_modifyPeer (g := fun a => { a with fingerprint := fingerprint }) fun p => rfl]
      apply h.change
      · exact fun a => rfl
      · intro a ha hnumber hverified
        exact absurd ((hunverified a ha hnumber).symm.trans hverified) Bool.false_ne_true
      · intro a ha hnumber b hb hother hverified
        exact absurd ((hunverified a ha hnumber).symm.trans hverified) Bool.false_ne_true
    exact h₁.talked (talked_sendDocument _ _ _ _)

end Lines

end Steps

/-- A hello introduces or renames its peer under a name as `Known` has it. -/
def HelloKnown (ctx : SyncContext) (s : SyncService) : ChannelEvent → Prop
  | .line number line =>
    ∀ p ∈ s.peer number, line.string "type" = "hello".toList → Known ctx s p ((line.remove "type").string "name")
  | _ => True

lemma Standings.next {e : ChannelEvent} (h : Standings ctx s) (hok : HelloKnown ctx s e) (hnext : s.next ctx e = some t) :
    Standings ctx t := by
  cases step_of_next hnext with
  | start | stop => exact .of_empty rfl
  | setLocalInfo name role version => exact h.setLocalInfo name role version
  | setDocument kind document =>
    rw [SyncService.setDocument]
    split
    · exact h
    · exact h.congr rfl rfl
  | broadcastTimeout => exact h.broadcast
  | request => exact h.talked (talked_run _ s)
  | requestTimeout => exact h.talked (talked_finish _ _ _ s)
  | answer =>
    rw [SyncService.answer]
    split
    · exact h
    · exact h.talked (talked_sendDocument _ _ _ _)
  | acceptIncoming => exact h.attach _ _ _
  | connectTo name host port => exact h.connectTo name host port
  | forget key => exact (h.congr (t := { s with targets := s.targets.filter fun t => t.key ≠ key }) rfl rfl).dropWhere _
  | retryNow => exact h.retryNow
  | retryTimeout key => exact (h.congr (t := s.modifyTarget key fun t => { t with timer := false }) rfl rfl).attempt key
  | reevaluateAccess => exact h.reevaluateAccess
  | encrypted hp hfresh fingerprint => exact h.onEncrypted (mem_of_peer hp).1 hfresh fingerprint
  | line hp hencrypted line => exact h.handleLine (mem_of_peer hp).1 hencrypted (hok _ hp)
  | helloTimeout | disconnected => exact h.dropPeer _

/-- Access follows the trust check in every state that is reached by hellos under known names. -/
theorem access_follows_trust (ctx : SyncContext) (s : SyncService) (h : Reachable Initial (next ctx) (HelloKnown ctx) s) :
    s.AccessFollows ctx := by
  have hinv : Standings ctx s := by
    apply h.invariant
    · intro s hs
      exact .of_empty (congrArg SyncService.peers hs)
    · exact fun s e t hs hok hnext => hs.next hok hnext
  exact hinv.accessFollows

instance (s : SyncService) : Decidable (AccessFollows ctx s) :=
  have (p q : Peer) : Decidable (p.verified = true → q.verified = true → ctx.qt.sameName p.name q.name = false) :=
    inferInstance
  decidable_of_iff
    ((∀ p ∈ s.peers, p.verified = true → p.access = accessOf ctx p p.name) ∧
      (∀ p ∈ s.peers, p.verified = true → Access.read ≤ p.access) ∧
      s.peers.Pairwise fun p q => p.verified = true → q.verified = true → ctx.qt.sameName p.name q.name = false)
    ⟨fun h => ⟨h.1, h.2.1, h.2.2⟩, fun h => ⟨h.access, h.atLeast, h.names⟩⟩

instance (s : SyncService) (p : Peer) (name : Name) : Decidable (Known ctx s p name) :=
  inferInstanceAs (Decidable (ite _ _ _))

instance : ∀ (s : SyncService) (e : ChannelEvent), Decidable (HelloKnown ctx s e)
  | s, .line number line => inferInstanceAs (Decidable (∀ p ∈ s.peer number,
      line.string "type" = "hello".toList → Known ctx s p ((line.remove "type").string "name")))
  | _, .start .. | _, .stop | _, .setLocalInfo .. | _, .setDocument .. | _, .broadcastTimeout | _, .request ..
  | _, .requestTimeout .. | _, .answer .. | _, .acceptIncoming | _, .connectTo .. | _, .forget .. | _, .retryNow
  | _, .retryTimeout .. | _, .reevaluateAccess | _, .encrypted .. | _, .helloTimeout .. | _, .disconnected .. =>
    .isTrue trivial

def twoTrusted : SyncContext where
  qt := ⟨fun c => c == ' ', Char.toLower, caseless, id⟩
  uuid n := List.replicate n '-'
  trust _ name _ := if caseless name = ['a'] then Access.write else if caseless name = ['b'] then Access.read else Access.none
  handle _ _ _ _ := .empty

def helloOf (name : Name) : Object := (new name "client".toList []).hello.put "type" (.string "hello".toList)

def connected (number : ℕ) (name : Name) : List ChannelEvent :=
  [.acceptIncoming, .encrypted number ['f'], .line number (helloOf name)]

theorem access_follows_trust_respelled :
    ∃ s : SyncService, s.AccessFollows twoTrusted ∧ s.peers.map Peer.name = [['a'], ['B']] := by
  obtain ⟨s, hreached, hnames⟩ : ∃ s, Reachable Initial (next twoTrusted) (HelloKnown twoTrusted) s ∧
      s.peers.map Peer.name = [['a'], ['B']] :=
    Reachable.exists_of_run (s := new ['s'] "server".toList []) rfl
      ([.start true true] ++ connected 0 ['a'] ++ connected 1 ['b'] ++ [.line 1 (helloOf ['B'])]) (by decide)
  exact ⟨s, access_follows_trust twoTrusted s hreached, hnames⟩

/-- A peer that may write keeps its access under the name of one that may read. -/
theorem access_kept_renamed : ¬∀ (ctx : SyncContext) (s : SyncService),
    Reachable Initial (next ctx) (fun _ _ => True) s → s.AccessFollows ctx := by
  intro h
  obtain ⟨s, hreached, hnot⟩ : ∃ s, Reachable Initial (next twoTrusted) (fun _ _ => True) s ∧ ¬s.AccessFollows twoTrusted :=
    Reachable.exists_of_run (s := new ['s'] "server".toList []) rfl
      ([.start true true] ++ connected 0 ['a'] ++ [.line 0 (helloOf ['b'])]) (by decide)
  exact hnot (h twoTrusted s hreached)

end SyncService

end InputLeap.Gui
