import InputLeap.Gui.SyncAccess
import InputLeap.Gui.SyncNetwork

/-! Published documents arrive. A verified peer has been sent the last version of every document but of those that wait
for the timer, and has the last version that it has read. -/

namespace InputLeap.Gui

open InputLeap.Lib

lemma Object.remove_put {o : Object} {key : String} (h : o.find? key.toList = none) (value : Json) : (o.put key value).remove key = o := by
  apply OrdMap.erase_set
  rw [OrdMap.contains, h]
  rfl

namespace SyncService

variable {ctx : SyncContext} {s t u : SyncService} {p q : Peer} {kind : Name} {lines : List Object} {line : Object}

/-- The words of the protocol are none, and lines of no kind are not read. -/
def Plain (kind : Name) : Prop := kind ≠ [] ∧ kind ∉ words

def lastOf (kind : Name) (lines : List Object) : Option Object :=
  ((lines.filter fun line => decide (line.string "type" = kind)).getLast?).map fun line => line.remove "type"

lemma lastOf_append_of_ne {more : List Object} (h : ∀ line ∈ more, line.string "type" ≠ kind) :
    lastOf kind (lines ++ more) = lastOf kind lines := by
  have hnone : (more.filter fun line => decide (line.string "type" = kind)) = [] := by
    apply List.filter_eq_nil_iff.mpr
    intro line hline
    rw [decide_eq_true_eq]
    exact h line hline
  rw [lastOf, lastOf, List.filter_append, hnone, List.append_nil]

lemma lastOf_append_self (h : line.string "type" = kind) : lastOf kind (lines ++ [line]) = some (line.remove "type") := by
  have hone : ([line].filter fun line => decide (line.string "type" = kind)) = [line] := by
    apply List.filter_eq_self.mpr
    rw [List.forall_mem_singleton, decide_eq_true_eq]
    exact h
  rw [lastOf, List.filter_append, hone, List.getLast?_concat]
  rfl

lemma requestNamed_mem {kind : Name} {request : RequestKind} (h : requestNamed kind = some request) : kind ∈ words := by
  have hkind : request.toString.toList = kind := of_decide_eq_true (List.find?_some h :)
  rw [← hkind]
  cases request <;> decide

section Peers

/-- What a peer has been sent, and what it has read. Documents may be missing that it has not been sent yet. -/
structure PeerInv (documents : OrdMap (id : Name → Name) Object) (missing : Name → Prop) (p : Peer) : Prop where
  silent : p.fingerprint = [] → p.sent = [] ∧ p.received = []
  greeted : p.fingerprint ≠ [] → ∃ line ∈ p.sent.head?, line.string "type" = "hello".toList
  unheard : p.received = [] → p.verified = false ∧ p.documents = .empty
  heard : (∃ line ∈ p.received.head?, line.string "type" = "hello".toList) →
    p.verified = true ∧ ∀ kind, Plain kind → p.documents.find? kind = lastOf kind p.received
  told : p.verified = true → ∀ kind, Plain kind → ∀ d, documents.find? kind = some d → d.find? "type".toList = none →
    missing kind ∨ lastOf kind p.sent = some d

namespace PeerInv

variable {documents : OrdMap (id : Name → Name) Object} {missing missing' : Name → Prop}

lemma received_ne (h : PeerInv documents missing p) (hverified : p.verified = true) : p.received ≠ [] := by
  intro hnone
  have hunverified := (h.unheard hnone).1
  rw [hverified] at hunverified
  cases hunverified

lemma fingerprint_ne (h : PeerInv documents missing p) (hverified : p.verified = true) : p.fingerprint ≠ [] :=
  fun hnone => h.received_ne hverified (h.silent hnone).2

lemma mono (h : PeerInv documents missing p)
    (hmissing : p.verified = true → ∀ kind d, documents.find? kind = some d → missing kind → missing' kind) :
    PeerInv documents missing' p :=
  ⟨h.silent, h.greeted, h.unheard, h.heard, fun hverified kind hplain d hd htype =>
    (h.told hverified kind hplain d hd htype).imp_left (hmissing hverified kind d hd)⟩

lemma fresh (h : Fresh p) : PeerInv documents missing p := by
  constructor
  · exact fun _ => ⟨h.sent, h.received⟩
  · exact fun hencrypted => absurd h.fingerprint hencrypted
  · exact fun _ => ⟨h.unverified, h.documents⟩
  · rintro ⟨line, hline, -⟩
    rw [h.received] at hline
    cases hline
  · intro hverified
    rw [h.unverified] at hverified
    cases hverified

lemma greeted_append (h : PeerInv documents missing p) (hencrypted : p.fingerprint ≠ []) (lines : List Object) :
    ∃ line ∈ (p.sent ++ lines).head?, line.string "type" = "hello".toList := by
  obtain ⟨line, hline, hhello⟩ := h.greeted hencrypted
  exact ⟨line, List.mem_head?_append_of_mem_head? hline, hhello⟩

lemma continues (h : PeerInv documents missing p) (hpq : Continues p q) : PeerInv documents missing q := by
  obtain ⟨lines, hlines, hsent⟩ := hpq.sent
  have hnone (hnot : p.verified = false) : lines = [] := by
    apply List.eq_nil_iff_forall_not_mem.mpr
    intro line hline
    have hverified := (hlines line hline).1
    rw [hnot] at hverified
    cases hverified
  constructor
  · rw [hpq.fingerprint, hpq.received]
    intro hsilent
    obtain ⟨hnothing, hunheard⟩ := h.silent hsilent
    rw [hsent, hnone (h.unheard hunheard).1, hnothing]
    exact ⟨rfl, hunheard⟩
  · rw [hpq.fingerprint, hsent]
    exact fun hencrypted => h.greeted_append hencrypted lines
  · rw [hpq.received, hpq.verified, hpq.documents]
    exact h.unheard
  · rw [hpq.received, hpq.verified, hpq.documents]
    exact h.heard
  · rw [hpq.verified, hsent]
    intro hverified kind hplain d hd htype
    have hnone : ∀ line ∈ lines, line.string "type" ≠ kind := by
      intro line hline hkind
      exact hplain.2 (hkind ▸ (hlines line hline).2)
    rw [lastOf_append_of_ne hnone]
    exact h.told hverified kind hplain d hd htype

lemma sends (h : PeerInv documents missing p) (hverified : p.verified = true) {document : Object}
    (hdocument : Plain kind → ∀ d, documents.find? kind = some d → document = d) :
    PeerInv documents (fun k => missing k ∧ k ≠ kind) { p with sent := p.sent ++ [document.put "type" (.string kind)] } := by
  have hencrypted := h.fingerprint_ne hverified
  constructor
  · exact fun hsilent => absurd hsilent hencrypted
  · exact fun _ => h.greeted_append hencrypted _
  · exact h.unheard
  · exact h.heard
  · intro _ k hplain d hd htype
    by_cases hkind : k = kind
    · subst hkind
      refine .inr ?_
      rw [lastOf_append_self (Object.string_put _ _ _), hdocument hplain d hd, Object.remove_put htype]
    · rw [lastOf_append_of_ne]
      · exact (h.told hverified k hplain d hd htype).imp_left fun hmissing => ⟨hmissing, hkind⟩
      · rw [List.forall_mem_singleton, Object.string_put]
        exact fun hsame => hkind hsame.symm

lemma reads (h : PeerInv documents missing p) (hencrypted : p.fingerprint ≠ []) (line : Object) (stored : OrdMap (id : Name → Name) Object)
    (hstored : p.verified = true → ∀ k, Plain k →
      stored.find? k = if line.string "type" = k then some (line.remove "type") else p.documents.find? k)
    (hquiet : p.verified = false → line.string "type" ≠ "hello".toList) :
    PeerInv documents missing { SyncService.reads line p with documents := stored } := by
  have hreceived : (SyncService.reads line p).received ≠ [] := List.append_ne_nil_of_right_ne_nil _ (List.cons_ne_nil _ _)
  constructor
  · exact fun hsilent => absurd hsilent hencrypted
  · exact h.greeted
  · exact fun hnone => absurd hnone hreceived
  · rintro ⟨first, hfirst, hhello⟩
    have hverified : p.verified = true := by
      cases hsome : p.received with
      | nil =>
        rw [SyncService.reads, hsome] at hfirst
        obtain rfl := Option.some.inj hfirst
        exact Bool.not_eq_false _ ▸ fun hnot => hquiet hnot hhello
      | cons l ls =>
        rw [SyncService.reads, hsome] at hfirst
        apply (h.heard ⟨first, ?_, hhello⟩).1
        rw [hsome]
        exact hfirst
    refine ⟨hverified, fun kind hplain => ?_⟩
    obtain ⟨l, ls, hsome⟩ := List.exists_cons_of_ne_nil (h.received_ne hverified)
    rw [SyncService.reads, hsome] at hfirst
    have hfind := (h.heard ⟨first, hsome ▸ hfirst, hhello⟩).2 kind hplain
    rw [hstored hverified kind hplain, SyncService.reads]
    split_ifs with hkind
    · exact (lastOf_append_self hkind).symm
    · rw [lastOf_append_of_ne (List.forall_mem_singleton.mpr hkind)]
      exact hfind
  · exact h.told

end PeerInv

end Peers

section Services

variable {missing missing' : ℕ → Name → Prop} {number : ℕ}

structure SyncInv (missing : ℕ → Name → Prop) (s : SyncService) : Prop where
  numbered : Numbered s
  peers : ∀ p ∈ s.peers, PeerInv s.documents (missing p.number) p

lemma modifyPeer_modifyPeer (s : SyncService) (number : ℕ) {f : Peer → Peer} (g : Peer → Peer) (hf : ∀ p, (f p).number = p.number) :
    (s.modifyPeer number f).modifyPeer number g = s.modifyPeer number fun p => g (f p) := by
  rw [modifyPeer, modifyPeer, modifyPeer, List.map_map]
  congr 1
  apply List.map_congr_left
  intro p _
  rw [Function.comp_apply]
  by_cases hnumber : p.number = number
  · rw [if_pos hnumber, if_pos ((hf p).trans hnumber), if_pos hnumber]
  · rw [if_neg hnumber, if_neg hnumber, if_neg hnumber]

lemma Grown.forall_peers (h : Grown s t) (hs : Numbered s) {P : Peer → Prop} (hP : ∀ p q, Continues p q → P p → P q)
    (hfresh : ∀ q, s.connections ≤ q.number → Fresh q → P q) (hpeers : ∀ p ∈ s.peers, P p) : ∀ q ∈ t.peers, P q := by
  intro q hq
  rcases h.peers hs q hq with ⟨p, hp, hpq⟩ | ⟨hnew, hq⟩
  · exact hP p q hpq (hpeers p hp)
  · exact hfresh q hnew hq

namespace SyncInv

lemma mono (h : SyncInv missing s) (hmissing : ∀ p ∈ s.peers, p.verified = true → ∀ kind d, s.documents.find? kind = some d →
    missing p.number kind → missing' p.number kind) : SyncInv missing' s :=
  ⟨h.numbered, fun p hp => (h.peers p hp).mono (hmissing p hp)⟩

lemma grown (h : SyncInv missing s) (hst : Grown s t) : SyncInv missing t := by
  refine ⟨hst.numbered h.numbered, ?_⟩
  rw [hst.documents]
  refine hst.forall_peers h.numbered (P := fun p => PeerInv s.documents (missing p.number) p) ?_ ?_ h.peers
  · intro p q hpq hp
    rw [hpq.number]
    exact hp.continues hpq
  · exact fun q _ hq => .fresh hq

lemma modifyPeer (h : SyncInv missing s) (hp : p ∈ s.peers) {f : Peer → Peer} (hnumber : ∀ q, (f q).number = q.number)
    (hf : PeerInv s.documents (missing p.number) (f p)) : SyncInv missing (s.modifyPeer p.number f) := by
  refine ⟨h.numbered.modifyPeer p.number hnumber, ?_⟩
  rw [SyncService.modifyPeer, List.forall_mem_map]
  intro q hq
  split_ifs with hsame
  · obtain rfl := h.numbered.eq hq hp hsame
    rw [hnumber]
    exact hf
  · exact h.peers q hq

lemma sendDocument (h : SyncInv missing s) (kind : Name) (document : Object)
    (hverified : ∀ p ∈ s.peers, p.number = number → p.verified = true) (hdocument : Plain kind → ∀ d, s.documents.find? kind = some d → document = d) :
    SyncInv (fun n k => missing n k ∧ ¬(n = number ∧ k = kind)) (s.sendDocument number kind document) := by
  refine ⟨h.numbered.talked (talked_sendDocument s number kind document), ?_⟩
  rw [SyncService.sendDocument, writeLine, SyncService.modifyPeer, List.forall_mem_map]
  intro p hp
  split_ifs with hnumber
  · apply ((h.peers p hp).sends (hverified p hp hnumber) hdocument).mono
    exact fun _ k d _ hmissing => ⟨hmissing.1, fun hsent => hmissing.2 hsent.2⟩
  · apply (h.peers p hp).mono
    exact fun _ k d _ hmissing => ⟨hmissing, fun hsent => hnumber hsent.1⟩

end SyncInv

lemma verified_sendDocument (s : SyncService) (n m : ℕ) (kind : Name) (document : Object)
    (h : ∀ p ∈ s.peers, p.number = n → p.verified = true) : ∀ p ∈ (s.sendDocument m kind document).peers, p.number = n → p.verified = true := by
  rw [SyncService.sendDocument, writeLine, SyncService.modifyPeer, List.forall_mem_map]
  intro p hp
  split_ifs
  · exact h p hp
  · exact h p hp

lemma SyncInv.sends {α : Type} {f : SyncService → α → SyncService} (kindOf : α → Name) {documentOf : SyncService → α → Object}
    (hf : ∀ s a, f s a = s.sendDocument number (kindOf a) (documentOf s a)) (as : List α) (h : SyncInv missing s) (hverified : ∀ p ∈ s.peers, p.number = number → p.verified = true)
    (hdocument : ∀ t, t.documents = s.documents → ∀ a ∈ as, ∀ d, s.documents.find? (kindOf a) = some d → documentOf t a = d) :
    SyncInv (fun n k => missing n k ∧ ¬(n = number ∧ k ∈ as.map kindOf)) (as.foldl f s) := by
  induction as generalizing s missing with
  | nil => exact h.mono fun p _ _ k d _ hmissing => ⟨hmissing, fun hsent => List.not_mem_nil hsent.2⟩
  | cons a as ih =>
    have hsent := h.sendDocument _ _ hverified fun _ => hdocument s rfl a List.mem_cons_self
    rw [List.foldl_cons, hf]
    apply (ih hsent (verified_sendDocument s number number _ _ hverified) fun t ht b hb => ?_).mono
    · intro p _ _ k d _ hmissing
      obtain ⟨⟨hbefore, hnot⟩, hrest⟩ := hmissing
      refine ⟨hbefore, fun hall => ?_⟩
      rcases List.mem_cons.mp hall.2 with hkind | hkind
      · exact hnot ⟨hall.1, hkind⟩
      · exact hrest ⟨hall.1, hkind⟩
    · exact hdocument t ht b (List.mem_cons_of_mem a hb)

lemma SyncInv.publish (h : SyncInv missing s) (number : ℕ) (kinds : List Name)
    (hverified : ∀ p ∈ s.peers, p.number = number → p.verified = true) :
    SyncInv (fun n k => missing n k ∧ ¬(n = number ∧ k ∈ kinds)) (SyncService.publish kinds s number) := by
  have hsends := SyncInv.sends (f := fun t kind => t.sendDocument number kind ((t.documents.find? kind).getD .empty)) id
    (fun _ _ => rfl) kinds h hverified ?_
  · rw [List.map_id] at hsends
    exact hsends
  · intro t ht kind _ d hd
    rw [ht, id_eq] at *
    rw [hd]
    rfl

lemma SyncInv.sendAll (h : SyncInv missing s) (hverified : ∀ p ∈ s.peers, p.number = number → p.verified = true) :
    SyncInv (fun n k => missing n k ∧ n ≠ number) (s.sendAll number) := by
  apply (SyncInv.sends (f := fun t e => t.sendDocument number e.1 e.2) Prod.fst (fun _ _ => rfl) s.documents.entries h
    hverified ?_).mono
  · intro p _ _ k d hd hmissing
    refine ⟨hmissing.1, fun hnumber => hmissing.2 ⟨hnumber, ?_⟩⟩
    have hfind : s.documents.find? k = some d := (talked_sendAll s number).documents ▸ hd
    obtain ⟨j, rfl, hentry⟩ := OrdMap.find?_eq_some.mp hfind
    exact List.mem_map_of_mem hentry
  · intro t _ e he d hd
    obtain ⟨j, hj, hentry⟩ := OrdMap.find?_eq_some.mp hd
    exact congrArg Prod.snd (OrdMap.entry_unique he hentry hj.symm)

section Events

variable (h : SyncInv missing s) (hp : p ∈ s.peers)

include h

lemma SyncInv.broadcast : SyncInv (fun n k => missing n k ∧ ¬(n ∈ s.verifiedNumbers ∧ k ∈ s.dirty)) s.broadcast := by
  suffices hall : ∀ (numbers : List ℕ) (missing : ℕ → Name → Prop) (t : SyncService), SyncInv missing t →
      (∀ n ∈ numbers, n ∈ t.verifiedNumbers) →
      SyncInv (fun n k => missing n k ∧ ¬(n ∈ numbers ∧ k ∈ s.dirty)) (numbers.foldl (SyncService.publish s.dirty) t) from
    hall _ _ _ ⟨⟨h.numbered.below, h.numbered.distinct⟩, h.peers⟩ fun n hn => hn
  intro numbers missing t ht hverified
  induction numbers generalizing t missing with
  | nil => exact ht.mono fun p _ _ k d _ hmissing => ⟨hmissing, fun hsent => List.not_mem_nil hsent.1⟩
  | cons n numbers ih =>
    have hpublish := ht.publish n s.dirty ?_
    · apply (ih _ _ hpublish ?_).mono
      · intro p _ _ k d _ hmissing
        obtain ⟨⟨hbefore, hnot⟩, hrest⟩ := hmissing
        refine ⟨hbefore, fun hall => ?_⟩
        rcases List.mem_cons.mp hall.1 with hnumber | hnumber
        · exact hnot ⟨hnumber, hall.2⟩
        · exact hrest ⟨hnumber, hall.2⟩
      · intro m hm
        rw [(talked_publish s.dirty t n).verifiedNumbers]
        exact hverified m (List.mem_cons_of_mem n hm)
    · rintro p hp rfl
      exact (ht.numbered.verified hp).mp (hverified _ List.mem_cons_self)

lemma SyncInv.setDocument (kind : Name) (document : Object) :
    SyncInv (fun n k => missing n k ∨ k ∈ (s.setDocument kind document).dirty) (s.setDocument kind document) := by
  rw [SyncService.setDocument]
  by_cases hsame : (s.documents.find? kind).getD .empty = document
  · rw [if_pos hsame]
    exact h.mono fun p _ _ k d _ => .inl
  · rw [if_neg hsame]
    refine ⟨⟨h.numbered.below, h.numbered.distinct⟩, fun p hp => ?_⟩
    have hinv := h.peers p hp
    refine ⟨hinv.silent, hinv.greeted, hinv.unheard, hinv.heard, fun hverified k hplain d hd htype => ?_⟩
    by_cases hkind : k = kind
    · subst hkind
      refine .inl (.inr ?_)
      dsimp only
      split_ifs with hdirty
      · exact hdirty
      · exact List.mem_append_right _ (List.mem_singleton.mpr rfl)
    · rw [OrdMap.find?_set_of_ne hkind] at hd
      exact (hinv.told hverified k hplain d hd htype).imp_left .inl

include hp

lemma SyncInv.onEncrypted (hfresh : p.fingerprint = []) (fingerprint : Name) : SyncInv missing (s.onEncrypted ctx p fingerprint) := by
  rw [SyncService.onEncrypted]
  split_ifs with hempty
  · exact h.grown (.dropPeer _ s p)
  · have hinv := h.peers p hp
    obtain ⟨hsilent, hnothing⟩ := hinv.silent hfresh
    obtain ⟨hunverified, -⟩ := hinv.unheard hnothing
    rw [SyncService.sendDocument, writeLine]
    rw [modifyPeer_modifyPeer s p.number (f := fun q => { q with fingerprint := fingerprint }) _ fun _ => rfl]
    refine h.modifyPeer (f := fun q => { q with
      fingerprint := fingerprint, sent := q.sent ++ [s.hello.put "type" (.string "hello".toList)] }) hp (fun _ => rfl) ?_
    constructor
    · exact fun hsame => absurd hsame hempty
    · rw [hsilent]
      exact fun _ => ⟨_, rfl, Object.string_put _ _ _⟩
    · exact hinv.unheard
    · exact hinv.heard
    · intro hverified
      rw [hunverified] at hverified
      cases hverified

lemma SyncInv.introduced (hencrypted : p.fingerprint ≠ []) (hunverified : p.verified = false) {line : Object}
    (hhello : line.string "type" = "hello".toList) (o : Object) :
    PeerInv s.documents (fun _ => True) { SyncService.introduced (reads line p) o with verified := true } := by
  have hinv := h.peers p hp
  constructor
  · exact fun hsilent => absurd hsilent hencrypted
  · exact hinv.greeted
  · exact fun hnone => absurd hnone (List.append_ne_nil_of_right_ne_nil _ (List.cons_ne_nil _ _))
  · rintro ⟨first, hfirst, hgreeting⟩
    refine ⟨rfl, fun kind hplain => ?_⟩
    cases hreceived : p.received with
    | nil =>
      have hother : line.string "type" ≠ kind := by
        intro hkind
        apply hplain.2
        rw [← hkind, hhello]
        decide
      rw [SyncService.introduced, reads, hreceived, (hinv.unheard hreceived).2]
      have hnone : lastOf kind ([] ++ [line]) = lastOf kind [] := lastOf_append_of_ne (List.forall_mem_singleton.mpr hother)
      exact hnone.symm
    | cons l ls =>
      rw [SyncService.introduced, reads, hreceived] at hfirst
      have hverified := (hinv.heard ⟨first, hreceived ▸ hfirst, hgreeting⟩).1
      rw [hunverified] at hverified
      cases hverified
  · exact fun _ _ _ _ _ _ => .inl trivial

omit h hp

structure Greeting (documents : OrdMap (id : Name → Name) Object) (missing : ℕ → Name → Prop) (number : ℕ) (p : Peer) : Prop where
  others : p.number ≠ number → PeerInv documents (missing p.number) p
  self : p.number = number → p.verified = false ∧ PeerInv documents (fun _ => True) { p with verified := true }

lemma Greeting.grown (hst : Grown s t) (hs : Numbered s) (hnumber : number < s.connections)
    (hpeers : ∀ p ∈ s.peers, Greeting s.documents missing number p) : ∀ p ∈ t.peers, Greeting t.documents missing number p := by
  rw [hst.documents]
  apply hst.forall_peers hs _ _ hpeers
  · rintro p q hpq ⟨hothers, hself⟩
    constructor
    · rw [hpq.number]
      exact fun hne => (hothers hne).continues hpq
    · rw [hpq.verified]
      intro hsame
      obtain ⟨hunverified, hinv⟩ := hself (hpq.number.symm.trans hsame)
      obtain ⟨lines, hlines, hsent⟩ := hpq.sent
      have hverified : Continues { p with verified := true } { q with verified := true } :=
        ⟨hpq.number, rfl, hpq.fingerprint, hpq.documents, hpq.received, lines, fun line hline => ⟨rfl, (hlines line hline).2⟩, hsent⟩
      exact ⟨hunverified, hinv.continues hverified⟩
  · exact fun q hnew hfresh => ⟨fun _ => .fresh hfresh, fun hsame => absurd (hsame ▸ hnew) hnumber.not_ge⟩

lemma SyncInv.verified (hs : Numbered s) (hpeers : ∀ p ∈ s.peers, Greeting s.documents missing number p) (level : ℤ) :
    SyncInv missing (((s.modifyPeer number fun p => { p with verified := true, helloTimer := false }).sendDocument number
      "access".toList (accessDocument level)).sendAll number) := by
  have hverified : SyncInv (fun n k => missing n k ∨ n = number)
      (s.modifyPeer number fun p => { p with verified := true, helloTimer := false }) := by
    refine ⟨hs.modifyPeer number fun _ => rfl, ?_⟩
    rw [SyncService.modifyPeer, List.forall_mem_map]
    intro p hp
    split_ifs with hsame
    · have hinv := ((hpeers p hp).self hsame).2
      have hcontinues : Continues { p with verified := true } { p with verified := true, helloTimer := false } :=
        ⟨rfl, rfl, rfl, rfl, rfl, [], List.forall_mem_nil _, (List.append_nil _).symm⟩
      exact (hinv.continues hcontinues).mono fun _ _ _ _ _ => .inr hsame
    · exact ((hpeers p hp).others hsame).mono fun _ _ _ _ => .inl
  have hself : ∀ p ∈ (s.modifyPeer number fun p => { p with verified := true, helloTimer := false }).peers,
      p.number = number → p.verified = true := by
    rw [SyncService.modifyPeer, List.forall_mem_map]
    intro p hp
    split_ifs with hsame
    · exact fun _ => rfl
    · exact fun hsame' => absurd hsame' hsame
  have haccess := hverified.sendDocument "access".toList (accessDocument level) hself fun hplain => absurd (by decide) hplain.2
  apply (haccess.sendAll (verified_sendDocument _ _ _ _ _ hself)).mono
  intro p _ _ k d _ hmissing
  exact hmissing.1.1.resolve_right hmissing.2

lemma SyncInv.welcome (hs : Numbered s) (hnumber : p.number < s.connections)
    (hpeers : ∀ q ∈ s.peers, Greeting s.documents missing p.number q) (o : Object) : SyncInv missing (s.welcome ctx p o) := by
  have hset := Grown.modifyPeer s p.number (f := fun q => { q with access := accessOf ctx p p.name, protocol := o.int "protocol" 1 })
    fun q => ⟨rfl, rfl, rfl, rfl, rfl, [], List.forall_mem_nil _, (List.append_nil _).symm⟩
  have hreplaced := hset.trans (.dropWhere ctx _ fun q =>
    decide (q.number ≠ p.number) && q.verified && decide (q.name = p.name))
  exact SyncInv.verified (hreplaced.numbered hs) (Greeting.grown hreplaced hs hnumber hpeers) _

include h hp

lemma SyncInv.greet (hencrypted : p.fingerprint ≠ []) (hunverified : p.verified = false) {line : Object}
    (hhello : line.string "type" = "hello".toList) (o : Object) :
    SyncInv missing ((s.modifyPeer p.number (reads line)).greet ctx (reads line p) o) := by
  have hnumbered := h.numbered.modifyPeer p.number (f := fun p => SyncService.introduced (reads line p) o) fun _ => rfl
  have hpeers : ∀ q ∈ (s.modifyPeer p.number fun p => SyncService.introduced (reads line p) o).peers,
      Greeting s.documents missing p.number q := by
    rw [SyncService.modifyPeer, List.forall_mem_map]
    intro q hq
    split_ifs with hnumber
    · obtain rfl := h.numbered.eq hq hp hnumber
      exact ⟨fun hne => absurd rfl hne, fun _ => ⟨hunverified, h.introduced hp hencrypted hunverified hhello o⟩⟩
    · exact ⟨fun _ => h.peers q hq, fun hsame => absurd hsame hnumber⟩
  have hnumber : p.number < s.connections := h.numbered.below _ (List.mem_map_of_mem hp)
  have hread : (s.modifyPeer p.number (reads line)).modifyPeer (reads line p).number (fun p => SyncService.introduced p o) =
      s.modifyPeer p.number fun p => SyncService.introduced (reads line p) o := modifyPeer_modifyPeer s p.number _ fun _ => rfl
  rw [SyncService.greet, hread]
  split_ifs
  · have hgrown := Grown.dropPeer ctx (s.modifyPeer p.number fun p => SyncService.introduced (reads line p) o)
      (SyncService.introduced (reads line p) o)
    refine ⟨hgrown.numbered hnumbered, fun q hq => ?_⟩
    apply (Greeting.grown hgrown hnumbered hnumber hpeers q hq).others
    have hgone : q.number ∈ ((s.modifyPeer p.number fun p => SyncService.introduced (reads line p) o).dropPeer ctx
        (SyncService.introduced (reads line p) o)).peers.map Peer.number := List.mem_map_of_mem hq
    rw [map_dropPeer fun _ _ => rfl] at hgone
    obtain ⟨r, hr, hsame⟩ := List.mem_map.mp hgone
    rw [← hsame]
    exact of_decide_eq_true (List.mem_filter.mp hr).2
  · exact SyncInv.welcome (p := SyncService.introduced (SyncService.reads line p) o) hnumbered hnumber hpeers _

lemma SyncInv.reads (hencrypted : p.fingerprint ≠ []) {line : Object}
    (hother : p.verified = true → ¬Plain (line.string "type")) (hquiet : p.verified = false → line.string "type" ≠ "hello".toList) :
    SyncInv missing (s.modifyPeer p.number (SyncService.reads line)) := by
  apply h.modifyPeer (f := SyncService.reads line) hp fun _ => rfl
  refine (h.peers p hp).reads hencrypted line p.documents (fun hverified k hplain => ?_) hquiet
  rw [if_neg]
  exact fun hkind => hother hverified (hkind ▸ hplain)

lemma SyncInv.handleLine (hencrypted : p.fingerprint ≠ []) (line : Object) : SyncInv missing (s.handleLine ctx p line) := by
  have hsame : (SyncService.reads line p).verified = p.verified := rfl
  have hread := mem_modifyPeer (g := SyncService.reads line) hp
  have hword (hkind : line.string "type" ∈ words) : ¬Plain (line.string "type") := fun hplain => hplain.2 hkind
  unfold SyncService.handleLine SyncService.handleKind
  rw [hsame]
  by_cases hhello : line.string "type" = "hello".toList
  · rw [if_pos hhello]
    split_ifs with hverified
    · have hrenamed := h.reads hp hencrypted (fun _ => hword (hhello ▸ by decide)) fun hunverified => by simp [hverified] at hunverified
      apply hrenamed.grown
      apply Grown.modifyPeer
      exact fun q => ⟨rfl, rfl, rfl, rfl, rfl, [], List.forall_mem_nil _, (List.append_nil _).symm⟩
    · exact h.greet hp hencrypted (by simpa using hverified) hhello _
  · rw [if_neg hhello]
    split_ifs with hignored haccess hack
    · apply h.reads hp hencrypted _ fun _ => hhello
      intro hverified hplain
      rw [hverified] at hignored
      exact hplain.1 (hignored.resolve_left (by simp))
    · apply (h.reads hp hencrypted (fun _ => hword (haccess ▸ by decide)) fun _ => hhello).grown
      apply Grown.modifyPeer
      exact fun q => ⟨rfl, rfl, rfl, rfl, rfl, [], List.forall_mem_nil _, (List.append_nil _).symm⟩
    · apply (h.reads hp hencrypted (fun _ => hword (hack ▸ by decide)) fun _ => hhello).grown
      exact .requested (talked_finishPending _ _ _ _)
    · have hverified : p.verified = true := by
        rw [not_or, Bool.not_eq_false] at hignored
        exact hignored.1
      split
      · rename_i request hrequest
        apply (h.reads hp hencrypted (fun _ => hword (requestNamed_mem hrequest)) fun _ => hhello).grown
        rw [handleRequest]
        split_ifs
        · exact .refl _
        · exact .sendDocument _ (mem_verifiedNumbers hread hverified) (by decide)
      · rename_i hnone
        have hkept : (s.modifyPeer p.number (SyncService.reads line)).modifyPeer (SyncService.reads line p).number
            (fun p => { p with documents := p.documents.set (line.string "type") (line.remove "type") }) =
            s.modifyPeer p.number fun p => { SyncService.reads line p with
              documents := p.documents.set (line.string "type") (line.remove "type") } :=
          modifyPeer_modifyPeer s p.number _ fun _ => rfl
        rw [hkept]
        refine h.modifyPeer (f := fun p => { SyncService.reads line p with
          documents := p.documents.set (line.string "type") (line.remove "type") }) hp (fun _ => rfl) ?_
        refine (h.peers p hp).reads hencrypted line _ (fun _ k _ => ?_) fun _ => hhello
        split_ifs with hkind
        · rw [hkind, OrdMap.find?_set_self]
        · exact OrdMap.find?_set_of_ne (Ne.symm hkind)

end Events

lemma dirty_welcome (s : SyncService) (p : Peer) (o : Object) : (s.welcome ctx p o).dirty = s.dirty := by
  have hreplaced := (Grown.dropWhere ctx (s.modifyPeer p.number fun q =>
    { q with access := accessOf ctx p p.name, protocol := o.int "protocol" 1 })
    fun q => decide (q.number ≠ p.number) && q.verified && decide (q.name = p.name)).dirty
  exact (talked_sendAll _ _).dirty.trans hreplaced

lemma dirty_onEncrypted (s : SyncService) (p : Peer) (fingerprint : Name) : (s.onEncrypted ctx p fingerprint).dirty = s.dirty := by
  rw [onEncrypted]
  split_ifs
  · exact (Grown.dropPeer ctx s p).dirty
  · rfl

lemma dirty_handleLine (s : SyncService) (p : Peer) (line : Object) : (s.handleLine ctx p line).dirty = s.dirty := by
  unfold handleLine handleKind
  split_ifs
  · rfl
  · rw [greet]
    split_ifs
    · exact (Grown.dropPeer ctx _ _).dirty
    · exact dirty_welcome _ _ _
  · rfl
  · rfl
  · exact (talked_finishPending _ _ _ _).dirty
  · split
    · rw [handleRequest]
      split_ifs
      · rfl
      · rfl
    · rfl

lemma SyncInv.next {e : ChannelEvent} (h : SyncInv (fun _ k => k ∈ s.dirty) s) (hnext : s.next ctx e = some t) :
    SyncInv (fun _ k => k ∈ t.dirty) t := by
  have hgrown (hst : Grown s t) : SyncInv (fun _ k => k ∈ t.dirty) t := by
    rw [hst.dirty]
    exact h.grown hst
  cases step_of_next hnext with
  | start ready listens => exact hgrown (.start s ready listens)
  | stop => exact hgrown (.stop s)
  | setLocalInfo name role version => exact hgrown (.setLocalInfo s name role version)
  | setDocument kind document =>
    apply (h.setDocument kind document).mono
    rintro p _ _ k d _ (hbefore | hdirty)
    · rw [SyncService.setDocument]
      split_ifs
      · exact hbefore
      · exact hbefore
      · exact List.mem_append_left _ hbefore
    · exact hdirty
  | broadcastTimeout =>
    have htalked := Talked.foldl (talked_publish s.dirty) s.verifiedNumbers { s with dirty := [], broadcastTimer := false }
    refine (h.broadcast).mono fun p hp hverified k d _ hmissing => ?_
    have hnumber := mem_verifiedNumbers hp hverified
    rw [SyncService.broadcast, htalked.verifiedNumbers] at hnumber
    exact absurd ⟨hnumber, hmissing.1⟩ hmissing.2
  | request => exact hgrown (.requested (talked_run _ s))
  | requestTimeout => exact hgrown (.requested (talked_finish _ _ _ s))
  | answer peerName id ack => exact hgrown (.answer s peerName id ack)
  | acceptIncoming => exact hgrown (.attach s true [] [])
  | connectTo name host port => exact hgrown (.connectTo s name host port)
  | forget key => exact hgrown (.forget s key)
  | retryNow => exact hgrown (.retryNow s)
  | retryTimeout key => exact hgrown ((Grown.modifyTarget s key _).trans (.attempt _ key))
  | reevaluateAccess => exact hgrown (.reevaluateAccess s)
  | encrypted hp hfresh fingerprint =>
    rw [dirty_onEncrypted]
    exact h.onEncrypted (mem_of_peer hp).1 hfresh fingerprint
  | line hp hencrypted line =>
    rw [dirty_handleLine]
    exact h.handleLine (mem_of_peer hp).1 hencrypted line
  | helloTimeout hp => exact hgrown (.dropPeer ctx s _)
  | disconnected hp => exact hgrown (.dropPeer ctx s _)

end Services

end SyncService

namespace SyncNetwork

open SyncService

variable {ι : Type} [DecidableEq ι] {net : NetworkContext ι} {s t : SyncNetwork ι}

/-- Once nothing waits for the timer or is under way, documents are known at the other end. -/
def Arrived (s : SyncNetwork ι) (which : Name → Object → Prop) : Prop :=
  ∀ e f p q, s.other f = some e → s.peerAt e = some p → s.peerAt f = some q → p.verified = true → q.verified = true →
    (s.node e.1).dirty = [] → s.inFlight e f = [] → ∀ kind d, which kind d → (s.node e.1).documents.find? kind = some d →
      q.documents.find? kind = some d

def Synced (s : SyncNetwork ι) : Prop := ∀ i, SyncInv (fun _ kind => kind ∈ (s.node i).dirty) (s.node i)

lemma Synced.setNode (h : Synced s) {i : ι} {u : SyncService} (hu : SyncInv (fun _ kind => kind ∈ u.dirty) u) : Synced (s.setNode i u) := by
  intro j
  rw [node_setNode]
  split_ifs
  · exact hu
  · exact h j

lemma Synced.next {event : NetworkEvent ι} (h : Synced s) (hnext : s.next net event = some t) : Synced t := by
  cases event with
  | own i event =>
    obtain ⟨-, hmap⟩ := Option.ite_none_right_eq_some.mp hnext
    obtain ⟨u, hu, rfl⟩ := Option.map_eq_some_iff.mp hmap
    exact h.setNode ((h i).next hu)
  | connect i number j =>
    obtain ⟨-, hmap⟩ := Option.ite_none_right_eq_some.mp hnext
    obtain ⟨u, hu, rfl⟩ := Option.map_eq_some_iff.mp hmap
    exact h.setNode ((h j).next hu)

lemma Synced.initial (h : s.Initial) : Synced s := by
  intro i
  refine ⟨(Ordered.initial h).numbered i, fun p hp => ?_⟩
  have hpeers : (s.node i).peers = [] := congrArg SyncService.peers (h.2 i)
  rw [hpeers] at hp
  cases hp

lemma received_eq_sent (h : Ordered s) {e f : End ι} {p q : Peer} (hlink : s.other f = some e) (hp : s.peerAt e = some p)
    (hq : s.peerAt f = some q) (hflight : s.inFlight e f = []) : q.received = p.sent := by
  have hdrop : s.inFlight e f = p.sent.drop q.received.length := by
    rw [inFlight, hp, hq]
    rfl
  rw [hdrop] at hflight
  exact (h.order f e hlink q hq p hp).eq_of_length_le (List.drop_eq_nil_iff.mp hflight)

theorem documents_arrive (net : NetworkContext ι) (s : SyncNetwork ι) (h : Reachable Initial (next net) (fun _ _ => True) s) :
    s.Arrived fun kind d => Plain kind ∧ d.find? "type".toList = none := by
  obtain ⟨hordered, hsynced⟩ : Ordered s ∧ Synced s := by
    apply h.invariant
    · exact fun s hs => ⟨.initial hs, .initial hs⟩
    · exact fun s e t hs _ hnext => ⟨hs.1.next hnext, hs.2.next hnext⟩
  rintro e f p q hlink hp hq hverified - hdirty hflight kind d ⟨hplain, htype⟩ hfind
  have hsender := (hsynced e.1).peers p (mem_of_peer hp).1
  have hreader := (hsynced f.1).peers q (mem_of_peer hq).1
  have hread := received_eq_sent hordered hlink hp hq hflight
  have hsent : lastOf kind p.sent = some d := by
    apply (hsender.told hverified kind hplain d hfind htype).resolve_left
    rw [hdirty]
    exact List.not_mem_nil
  -- the greeting came first
  have hgreeted := hsender.greeted (hsender.fingerprint_ne hverified)
  rw [← hread] at hgreeted
  rw [(hreader.heard hgreeted).2 kind hplain, hread, hsent]

def twoComputers : NetworkContext Bool where
  ctx _ := twoTrusted
  resolve host _ := if host = ['a'] then some false else some true

def unstarted : SyncNetwork Bool where
  node i := new (if i then ['b'] else ['a']) "client".toList []
  links := []

def typed (document : Object) (kind : String) : Object := document.put "type" (.string kind.toList)

def accessLine (level : ℤ) : Object := typed (accessDocument level) "access"

def met : List (NetworkEvent Bool) :=
  [.own false (.start true true), .own true (.start true true), .own true (.connectTo [] ['a'] 1), .connect true 0 false,
    .own true (.encrypted 0 ['f']), .own false (.encrypted 0 ['f']), .own false (.line 0 (helloOf ['b'])),
    .own true (.line 0 (helloOf ['a'])), .own true (.line 0 (accessLine 1))]

def published (kind : String) (document : Object) : List (NetworkEvent Bool) :=
  [.own false (.setDocument kind.toList document), .own false .broadcastTimeout, .own true (.line 0 (typed document kind))]

def fleet (key : String) : Object := Object.put OrdMap.empty key (.number 1)

theorem documents_arrive_fleet : ∃ s : SyncNetwork Bool, (s.Arrived fun kind d => Plain kind ∧ d.find? "type".toList = none) ∧
    s.other (true, 0) = some (false, 0) ∧
    (s.peerAt (true, 0)).map (fun q => q.documents.find? "fleet".toList) = some (some (fleet "online")) := by
  obtain ⟨s, hreached, hother, hdocument⟩ : ∃ s, Reachable Initial (next twoComputers) (fun _ _ => True) s ∧
      s.other (true, 0) = some (false, 0) ∧
      (s.peerAt (true, 0)).map (fun q => q.documents.find? "fleet".toList) = some (some (fleet "online")) :=
    Reachable.exists_of_run (s := unstarted) ⟨rfl, fun _ => rfl⟩ (met ++ published "fleet" (fleet "online")) (by decide)
  exact ⟨s, documents_arrive twoComputers s hreached, hother, hdocument⟩

def publishedKind : NetworkEvent ι → Option Name
  | .own _ (.setDocument kind _) => some kind
  | _ => none

def NoWord (event : NetworkEvent ι) : Prop := ∀ kind ∈ publishedKind event, kind ∉ words

instance : DecidablePred (NoWord (ι := ι)) := fun _ => Option.decidableForallMem _

/-- The connection is quiet, but the document is not known at the other end. -/
def Lost (kind : Name) (document : Object) (s : SyncNetwork Bool) : Prop :=
  s.other (true, 0) = some (false, 0) ∧ (s.peerAt (false, 0)).map Peer.verified = some true ∧
    (s.peerAt (true, 0)).map Peer.verified = some true ∧ (s.node false).dirty = [] ∧ s.inFlight (false, 0) (true, 0) = [] ∧
    (s.node false).documents.find? kind = some document ∧
    (s.peerAt (true, 0)).map (fun q => decide (q.documents.find? kind = some document)) = some false

instance (kind : Name) (document : Object) : DecidablePred (Lost kind document) := fun _ => inferInstanceAs (Decidable (_ ∧ _))

lemma Lost.not_arrived {kind : Name} {document : Object} {s : SyncNetwork Bool} (h : Lost kind document s)
    (which : Name → Object → Prop) (hwhich : which kind document) : ¬s.Arrived which := by
  obtain ⟨hlink, hverified, hverified', hdirty, hflight, hfind, hnot⟩ := h
  obtain ⟨p, hp, hpverified⟩ := Option.map_eq_some_iff.mp hverified
  obtain ⟨q, hq, hqverified⟩ := Option.map_eq_some_iff.mp hverified'
  intro harrived
  have hfound := harrived _ _ p q hlink hp hq hpverified hqverified hdirty hflight _ _ hwhich hfind
  rw [hq, Option.map_some, decide_eq_true hfound] at hnot
  cases hnot

/-- A document of no kind is not read, and one that has a type loses it. -/
theorem document_not_arrived :
    (¬∀ (net : NetworkContext Bool) (s : SyncNetwork Bool), Reachable Initial (next net) (fun _ e => NoWord e) s →
      s.Arrived fun _ d => d.find? "type".toList = none) ∧
    ¬∀ (net : NetworkContext Bool) (s : SyncNetwork Bool), Reachable Initial (next net) (fun _ e => NoWord e) s →
      s.Arrived fun kind _ => kind ≠ [] := by
  constructor
  · intro h
    obtain ⟨s, hreached, hlost⟩ : ∃ s, Reachable Initial (next twoComputers) (fun _ e => NoWord e) s ∧ Lost [] (fleet "online") s :=
      Reachable.exists_of_run (s := unstarted) ⟨rfl, fun _ => rfl⟩ (met ++ published "" (fleet "online")) (by decide)
    exact hlost.not_arrived (fun _ d => d.find? "type".toList = none) (by decide) (h twoComputers s hreached)
  · intro h
    obtain ⟨s, hreached, hlost⟩ : ∃ s, Reachable Initial (next twoComputers) (fun _ e => NoWord e) s ∧
        Lost "fleet".toList (fleet "type") s :=
      Reachable.exists_of_run (s := unstarted) ⟨rfl, fun _ => rfl⟩ (met ++ published "fleet" (fleet "type")) (by decide)
    exact hlost.not_arrived (fun kind _ => kind ≠ []) (by decide) (h twoComputers s hreached)

end SyncNetwork

end InputLeap.Gui
