import InputLeap.Protocol.Link

/-! What the messages of a connection come to, one after the other, as against what its loop does with as many of
them as there are. The two may differ in effects that are left aside, and in a part of the state. -/

namespace InputLeap.Protocol

open InputLeap.Lib InputLeap.Io

variable {S T E M O : Type}

structure Same (keep : E → Bool) (R : S → T → Prop) (a : Reaction S E) (b : Reaction T E) : Prop where
  next : a.next = b.next
  effects : a.effects.filter keep = b.effects
  state : R a.state b.state

/-- The loop does with a message what is told of it, whether another follows or not. -/
structure Endpoint.Means (p : Endpoint S E) (packet : M → Packet) (own : O → S → S) (keep : E → Bool)
    (told : T → M → Reaction T E) (own' : O → T → T) (R : S → T → Prop) : Prop where
  take : ∀ {s t}, R s t → ∀ ready m, Same keep R ((p.parse s (packet m).code).take s (packet m) ready) (told t m)
  finish : ∀ {s t}, R s t → R (p.finish s).1 t ∧ (p.finish s).2.filter keep = []
  own : ∀ {s t}, R s t → ∀ o, R (own o s) (own' o t)

def toldAll (told : T → M → Reaction T E) (own' : O → T → T) : T → List (M ⊕ O) → Reaction T E
  | t, [] => ⟨t, [], .goOn⟩
  | t, .inr o :: items => toldAll told own' (own' o t) items
  | t, .inl m :: items =>
    let a := told t m
    if a.next = .goOn then (toldAll told own' a.state items).after a.effects else a

def messagesOf (items : List (M ⊕ O)) : List M := items.filterMap Sum.getLeft?

def ownsOf (items : List (M ⊕ O)) : List O := items.filterMap Sum.getRight?

section Items

variable (items more : List (M ⊕ O)) (ms : List M) (owns : List O)

lemma messagesOf_append : messagesOf (items ++ more) = messagesOf items ++ messagesOf more := List.filterMap_append

lemma ownsOf_append : ownsOf (items ++ more) = ownsOf items ++ ownsOf more := List.filterMap_append

lemma messagesOf_inl : messagesOf (ms.map (Sum.inl : M → M ⊕ O)) = ms := by
  rw [messagesOf, List.filterMap_map]
  exact List.filterMap_some

lemma ownsOf_inl : ownsOf (ms.map (Sum.inl : M → M ⊕ O)) = [] := by
  simp [ownsOf]

lemma messagesOf_inr : messagesOf (owns.map (Sum.inr : O → M ⊕ O)) = [] := by
  simp [messagesOf]

lemma ownsOf_inr : ownsOf (owns.map (Sum.inr : O → M ⊕ O)) = owns := by
  rw [ownsOf, List.filterMap_map]
  exact List.filterMap_some

end Items

section Told

variable {told : T → M → Reaction T E} {own' : O → T → T}

lemma toldAll_append (t : T) (items more : List (M ⊕ O)) :
    toldAll told own' t (items ++ more) =
      if (toldAll told own' t items).next = .goOn then
        (toldAll told own' (toldAll told own' t items).state more).after (toldAll told own' t items).effects
      else toldAll told own' t items := by
  induction items generalizing t with
  | nil => rfl
  | cons item items ih =>
    cases item with
    | inr o => exact ih (own' o t)
    | inl m =>
      rw [List.cons_append, toldAll, toldAll]
      by_cases hgo : (told t m).next = .goOn
      · simp only [if_pos hgo, Reaction.after_next, Reaction.after_state, Reaction.after_effects, ih]
        split_ifs
        · simp [Reaction.after]
        · rfl
      · simp only [if_neg hgo]

lemma toldAll_messages (hown : ∀ o t, own' o t = t) (t : T) (items : List (M ⊕ O)) :
    toldAll told own' t items = toldAll told own' t ((messagesOf items).map .inl) := by
  induction items generalizing t with
  | nil => rfl
  | cons item items ih =>
    cases item with
    | inr o =>
      rw [toldAll, hown]
      exact ih t
    | inl m =>
      have hmessages : messagesOf (.inl m :: items) = m :: messagesOf items := rfl
      rw [hmessages, List.map_cons, toldAll, toldAll, ih]

end Told

section Means

variable {p : Endpoint S E} {packet : M → Packet} {own : O → S → S} {keep : E → Bool} {told : T → M → Reaction T E}
  {own' : O → T → T} {R : S → T → Prop} {s : S} {t : T}

lemma Same.after {a : Reaction S E} {b : Reaction T E} (h : Same keep R a b) {effects effects' : List E}
    (heffects : effects.filter keep = effects') : Same keep R (a.after effects) (b.after effects') where
  next := h.next
  effects := by rw [Reaction.after_effects, Reaction.after_effects, List.filter_append, heffects, h.effects]
  state := h.state

variable (hmeans : p.Means packet own keep told own' R)
include hmeans

lemma takeAll_told (h : R s t) (ms : List M) :
    Same keep R (p.takeAll s (ms.map packet)) (toldAll told own' t (ms.map .inl)) := by
  induction ms generalizing s t with
  | nil =>
    obtain ⟨hstate, heffects⟩ := hmeans.finish h
    exact ⟨rfl, heffects, hstate⟩
  | cons m ms ih =>
    have hm := hmeans.take h (!(ms.map packet).isEmpty) m
    rw [List.map_cons, List.map_cons, Endpoint.takeAll, toldAll, hm.next]
    split_ifs
    · exact (ih hm.state).after hm.effects
    · exact hm

lemma goThrough_told (h : R s t) {stages : List (Stage O)} {ms : List M}
    (hms : stages.flatMap Stage.messages = ms.map packet) :
    ∃ items : List (M ⊕ O), messagesOf items = ms ∧ ownsOf items = stages.filterMap Stage.own? ∧
      Same keep R (p.goThrough own s stages) (toldAll told own' t items) := by
  induction stages generalizing s t ms with
  | nil =>
    obtain rfl := List.map_eq_nil_iff.mp hms.symm
    exact ⟨[], rfl, rfl, rfl, rfl, h⟩
  | cons stage stages ih =>
    rw [List.flatMap_cons] at hms
    cases stage with
    | own o =>
      obtain ⟨items, hitems, howns, hsame⟩ := ih (hmeans.own h o) hms
      exact ⟨.inr o :: items, hitems, congrArg (o :: ·) howns, hsame⟩
    | batch packets =>
      obtain ⟨ms, more, rfl, hbatch, hmore⟩ := List.map_eq_append_iff.mp hms.symm
      obtain rfl : ms.map packet = packets := hbatch
      have htaken := takeAll_told hmeans h ms
      by_cases hgo : (p.takeAll s (ms.map packet)).next = .goOn
      · obtain ⟨items, hitems, howns, hsame⟩ := ih htaken.state hmore.symm
        refine ⟨ms.map .inl ++ items, ?_, ?_, ?_⟩
        · rw [messagesOf_append, messagesOf_inl, hitems]
        · rw [ownsOf_append, ownsOf_inl, howns]
          rfl
        · rw [Endpoint.goThrough, toldAll_append, if_pos hgo, if_pos (htaken.next ▸ hgo)]
          exact hsame.after htaken.effects
      -- the rest of the items is not looked at
      · refine ⟨ms.map .inl ++ (more.map .inl ++ (stages.filterMap Stage.own?).map .inr), ?_, ?_, ?_⟩
        · simp [messagesOf_append, messagesOf_inl, messagesOf_inr]
        · simp only [ownsOf_append, ownsOf_inl, ownsOf_inr, List.nil_append]
          rfl
        · rw [Endpoint.goThrough, toldAll_append, if_neg hgo, if_neg (htaken.next ▸ hgo)]
          exact htaken

variable {before : List (List UInt8)} {sends : List M} {arrived : List UInt8} {l : Link S E} {steps : List (LinkStep O)}

/-- However the bytes are cut, and whenever the queue gets to its events, what is kept of the effects is what is told of
the messages and of what happens in between. -/
theorem Link.run_told (hunderstands : ∀ m ∈ sends, p.Understands (packet m))
    (hbefore : ∀ q ∈ before, q ≠ [] ∧ q.length ≤ maxMessageLength)
    (hstart : l.At before (sends.map packet) arrived []) (hl : l.connected = true ∧ l.effects = [])
    (hpre : arrived ++ arrivedIn steps <+: wire (packets before (sends.map packet))) (hfits : l.Fits p own steps)
    (ht : R l.state t) :
    ∃ items : List (M ⊕ O), messagesOf items <+: sends ∧ ownsOf items <+: steps.filterMap LinkStep.own? ∧
      (l.run p own steps).effects.filter keep = (toldAll told own' t items).effects ∧
      ((l.run p own steps).connected = true ↔ (toldAll told own' t items).next = .goOn) ∧
      ((l.run p own steps).connected = true → ownsOf items = steps.filterMap LinkStep.own? ∧
        R (l.run p own steps).state (toldAll told own' t items).state ∧
        ((l.run p own steps).inputReady = 0 → ∀ n ≤ sends.length,
          wire (packets before ((sends.take n).map packet)) <+: arrived ++ arrivedIn steps →
            n ≤ (messagesOf items).length)) := by
  have hpackets : ∀ m ∈ sends.map packet, p.Understands m := by
    intro m hm
    obtain ⟨send, hsend, rfl⟩ := List.mem_map.mp hm
    exact hunderstands send hsend
  obtain ⟨stages, htaken, howns, hreached, hall⟩ := Link.run_stages hpackets hbefore hstart hl hpre hfits
  have hstages : stages.flatMap Stage.messages = (sends.take (stages.flatMap Stage.messages).length).map packet := by
    rw [List.map_take]
    exact List.prefix_iff_eq_take.mp htaken
  obtain ⟨items, hitems, hown, hsame⟩ := goThrough_told hmeans ht hstages
  refine ⟨items, hitems ▸ List.take_prefix _ _, hown ▸ howns, ?_, ?_, fun hconnected => ⟨?_, ?_, fun hnone n hn hwire => ?_⟩⟩
  · rw [hreached.effects, hsame.effects]
  · rw [hreached.connected, hsame.next]
  · rw [hown, (hall hconnected).1]
  · rw [hreached.state]
    exact hsame.state
  · have hle := (hall hconnected).2 hnone n (by rwa [List.length_map]) (by rwa [← List.map_take])
    rwa [hstages, List.length_map, ← hitems] at hle

end Means

end InputLeap.Protocol
