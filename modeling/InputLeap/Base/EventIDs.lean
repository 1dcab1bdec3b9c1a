import InputLeap.Lib.OrdMap
import InputLeap.Lib.Reachable
import Mathlib.Algebra.Order.Ring.Nat
import Mathlib.Data.List.Range
import Mathlib.Data.List.Perm.Basic

/-! The events that wait in the buffer of an event queue. The buffer only knows their ids; ids that are free again are
used before new ones. -/

namespace InputLeap.EventQueue

open InputLeap.Lib

variable {E : Type}

structure EventTable (E : Type) where
  m_events : OrdMap (id : ℕ → ℕ) E
  /-- The last of the vector comes first. -/
  m_oldEventIDs : List ℕ

namespace EventTable

def empty : EventTable E := ⟨.empty, []⟩

def size (t : EventTable E) : ℕ := t.m_events.entries.length

def saveEvent (t : EventTable E) (event : E) : ℕ × EventTable E :=
  match t.m_oldEventIDs with
  | id :: ids => (id, ⟨t.m_events.set id event, ids⟩)
  | [] =>
    let id := t.size % 2 ^ 32
    (id, ⟨t.m_events.set id event, []⟩)

def removeEvent (t : EventTable E) (id : ℕ) : Option E × EventTable E :=
  match t.m_events.find? id with
  | none => (none, t)
  | some event => (some event, ⟨t.m_events.erase id, id :: t.m_oldEventIDs⟩)

end EventTable

structure Queue (E : Type) where
  table : EventTable E
  buffer : List ℕ
  saved : List E
  returned : List (Option E)
  discarded : List (Option E)

inductive Call (E : Type)
  | addEventToBuffer (event : E) (success : Bool)
  | getEvent (dataID : ℕ)
  | setBuffer

namespace Queue

def start : Queue E := ⟨.empty, [], [], [], []⟩

def addEventToBuffer (q : Queue E) (event : E) (success : Bool) : Queue E :=
  let (eventID, table) := q.table.saveEvent event
  let q := { q with table := table, saved := event :: q.saved }
  if success then { q with buffer := eventID :: q.buffer }
  else
    let (removed, table) := q.table.removeEvent eventID
    { q with table := table, discarded := removed :: q.discarded }

/-- The buffer returns any of its ids, each one once. -/
def getEvent (q : Queue E) (dataID : ℕ) : Option (Queue E) :=
  if dataID ∈ q.buffer then
    let (event, table) := q.table.removeEvent dataID
    some { q with table := table, buffer := q.buffer.erase dataID, returned := event :: q.returned }
  else none

def setBuffer (q : Queue E) : Queue E :=
  { q with
    table := .empty
    buffer := []
    discarded := q.table.m_events.entries.map (fun e => some e.2) ++ q.discarded }

def next (q : Queue E) : Call E → Option (Queue E)
  | .addEventToBuffer event success => some (q.addEventToBuffer event success)
  | .getEvent dataID => q.getEvent dataID
  | .setBuffer => some q.setBuffer

end Queue

namespace EventTable

variable {t : EventTable E} {id : ℕ} {event : E}

def ids (t : EventTable E) : List ℕ := t.m_events.entries.map Prod.fst

/-- The ids in use and those that are free again are the first numbers. -/
def Numbered (t : EventTable E) : Prop :=
  (t.ids ++ t.m_oldEventIDs).Perm (List.range (t.size + t.m_oldEventIDs.length))

lemma numbered_empty : (EventTable.empty : EventTable E).Numbered := List.Perm.refl _

lemma contains_iff_mem : t.m_events.contains id = true ↔ id ∈ t.ids := by
  rw [OrdMap.contains_iff, ids, List.mem_map]
  rfl

lemma length_ids (t : EventTable E) : t.ids.length = t.size := List.length_map _

lemma Numbered.nodup (h : t.Numbered) : (t.ids ++ t.m_oldEventIDs).Nodup := h.nodup_iff.mpr List.nodup_range

lemma ids_set (hnew : t.m_events.contains id = false) (event : E) (free : List ℕ) :
    (EventTable.mk (t.m_events.set id event) free).ids.Perm (id :: t.ids) := by
  have hperm : (t.m_events.set id event).entries.Perm ((id, event) :: t.m_events.entries) := by
    rw [OrdMap.set, OrdMap.erase_of_not_contains hnew]
    exact OrdMap.perm_insert hnew event
  exact hperm.map Prod.fst

lemma saveEvent_spec (h : t.Numbered) (hsize : t.size < 2 ^ 32) (event : E) :
    t.m_events.contains (t.saveEvent event).1 = false ∧
      (t.saveEvent event).2.m_events = t.m_events.set (t.saveEvent event).1 event ∧ (t.saveEvent event).2.Numbered := by
  have hnodup := h.nodup
  rw [saveEvent]
  cases hold : t.m_oldEventIDs with
  | nil =>
    rw [Numbered, hold, List.append_nil, List.length_nil, Nat.add_zero] at h
    dsimp only
    rw [Nat.mod_eq_of_lt hsize]
    have hnew : t.m_events.contains t.size = false := by
      rw [← Bool.not_eq_true, contains_iff_mem, h.mem_iff, List.mem_range]
      exact lt_irrefl _
    refine ⟨hnew, rfl, ?_⟩
    have hids := ids_set hnew event []
    have hlength := hids.length_eq
    rw [length_ids, List.length_cons, length_ids] at hlength
    rw [Numbered, List.append_nil, hlength, List.length_nil, Nat.add_zero, List.range_succ]
    exact hids.trans ((h.cons _).trans (List.perm_append_singleton _ _).symm)
  | cons id free =>
    rw [Numbered, hold] at h
    rw [hold] at hnodup
    have hnew : t.m_events.contains id = false := by
      rw [← Bool.not_eq_true, contains_iff_mem]
      intro hmem
      exact (List.nodup_append.mp hnodup).2.2 id hmem id List.mem_cons_self rfl
    refine ⟨hnew, rfl, ?_⟩
    have hids := ids_set hnew event free
    have hlength := hids.length_eq
    rw [length_ids, List.length_cons, length_ids] at hlength
    rw [Numbered, hlength, Nat.add_assoc, Nat.add_comm 1]
    exact (hids.append_right free).trans (List.perm_middle.symm.trans h)

lemma removeEvent_eq (hmem : (id, event) ∈ t.m_events.entries) :
    t.removeEvent id = (some event, ⟨t.m_events.erase id, id :: t.m_oldEventIDs⟩) := by
  have hfind : t.m_events.find? id = some event := OrdMap.find?_eq_some.mpr ⟨id, rfl, hmem⟩
  rw [removeEvent, hfind]

lemma Numbered.removeEvent (h : t.Numbered) (hmem : (id, event) ∈ t.m_events.entries) :
    (t.removeEvent id).2.Numbered := by
  have hperm : t.ids.Perm (id :: (EventTable.mk (t.m_events.erase id) (id :: t.m_oldEventIDs)).ids) :=
    (OrdMap.perm_erase hmem).map Prod.fst
  have hlength := hperm.length_eq
  rw [length_ids, List.length_cons, length_ids] at hlength
  rw [removeEvent_eq hmem, Numbered, List.length_cons, ← Nat.add_assoc, Nat.add_right_comm, ← hlength]
  exact (List.perm_middle.trans (hperm.symm.append_right _)).trans h

end EventTable

namespace Queue

variable {q q' : Queue E} {call : Call E} {event : E}

def stored (q : Queue E) : List (Option E) := q.table.m_events.entries.map fun e => some e.2

/-- The buffer has the ids of the events that are stored, and every event is stored, returned or discarded once. -/
structure Accounted (q : Queue E) : Prop where
  numbered : q.table.Numbered
  buffer : q.buffer.Perm q.table.ids
  events : (q.saved.map some).Perm (q.returned ++ q.discarded ++ q.stored)

def FewStored (q : Queue E) (call : Call E) : Prop :=
  ∀ event success, call = .addEventToBuffer event success → q.table.size < 2 ^ 32

lemma accounted_start : (start : Queue E).Accounted := ⟨EventTable.numbered_empty, .refl _, .refl _⟩

lemma Accounted.addEventToBuffer (h : q.Accounted) (hsize : q.table.size < 2 ^ 32) (event : E) (success : Bool) :
    (q.addEventToBuffer event success).Accounted := by
  obtain ⟨hnew, hevents, hnumbered⟩ := EventTable.saveEvent_spec h.numbered hsize event
  rw [Queue.addEventToBuffer]
  generalize q.table.saveEvent event = result at hnew hevents hnumbered
  obtain ⟨eventID, ⟨events, free⟩⟩ := result
  dsimp only at hnew hevents hnumbered ⊢
  subst hevents
  have hperm : (q.table.m_events.set eventID event).entries.Perm ((eventID, event) :: q.table.m_events.entries) := by
    rw [OrdMap.set, OrdMap.erase_of_not_contains hnew]
    exact OrdMap.perm_insert hnew event
  cases success with
  | true =>
    refine ⟨hnumbered, (h.buffer.cons eventID).trans (EventTable.ids_set hnew event free).symm, ?_⟩
    have hstored := hperm.map fun e => some e.2
    exact (h.events.cons (some event)).trans (List.perm_middle.symm.trans (hstored.symm.append_left _))
  | false =>
    have hmem : (eventID, event) ∈ (q.table.m_events.set eventID event).entries := OrdMap.mem_set.mpr (.inl rfl)
    have hremove := EventTable.removeEvent_eq (t := ⟨q.table.m_events.set eventID event, free⟩) hmem
    have herase : ((q.table.m_events.set eventID event).erase eventID).entries.Perm q.table.m_events.entries :=
      ((OrdMap.perm_erase hmem).symm.trans hperm).cons_inv
    have hnumbered' := hnumbered.removeEvent hmem
    rw [hremove] at hnumbered'
    rw [if_neg Bool.false_ne_true, hremove]
    refine ⟨hnumbered', h.buffer.trans (herase.map Prod.fst).symm, ?_⟩
    have hstored := herase.map fun e => some e.2
    have hdiscarded : (some event :: (q.returned ++ q.discarded ++ q.stored)).Perm
        (q.returned ++ some event :: q.discarded ++ q.stored) := by
      rw [List.append_assoc, List.append_assoc, List.cons_append]
      exact List.perm_middle.symm
    exact (h.events.cons (some event)).trans (hdiscarded.trans (hstored.symm.append_left _))

lemma Accounted.getEvent (h : q.Accounted) {dataID : ℕ} (hget : q.getEvent dataID = some q') : q'.Accounted := by
  rw [Queue.getEvent] at hget
  split_ifs at hget with hmem
  obtain ⟨⟨id, event⟩, hentry, hid⟩ := List.mem_map.mp (h.buffer.mem_iff.mp hmem)
  have hentry : (dataID, event) ∈ q.table.m_events.entries := hid ▸ hentry
  have hnumbered := h.numbered.removeEvent hentry
  have hremove := EventTable.removeEvent_eq hentry
  have hperm := OrdMap.perm_erase hentry
  rw [hremove] at hget hnumbered
  cases Option.some.inj hget
  refine ⟨hnumbered, ?_, ?_⟩
  · have hids := h.buffer.erase dataID
    exact hids.trans (((hperm.map Prod.fst).erase dataID).trans (by simp [EventTable.ids]))
  · have hstored := hperm.map fun e => some e.2
    have hreturned := h.events.trans (hstored.append_left _)
    exact hreturned.trans (List.perm_middle.trans (by rw [List.cons_append, List.cons_append]; exact .refl _))

lemma Accounted.next (h : q.Accounted) (hfew : q.FewStored call) (hnext : q.next call = some q') : q'.Accounted := by
  cases call with
  | addEventToBuffer event success =>
    cases Option.some.inj hnext
    exact h.addEventToBuffer (hfew event success rfl) event success
  | getEvent dataID => exact h.getEvent hnext
  | setBuffer =>
    cases Option.some.inj hnext
    refine ⟨EventTable.numbered_empty, .refl _, ?_⟩
    have hevents := h.events
    rw [List.append_assoc] at hevents
    refine hevents.trans ?_
    change (q.returned ++ (q.discarded ++ q.stored)).Perm (q.returned ++ (q.stored ++ q.discarded) ++ [])
    rw [List.append_nil]
    exact List.perm_append_comm.append_left _

lemma accounted_of_reachable (h : Reachable (fun q => q = start) next FewStored q) : q.Accounted := by
  induction h with
  | start h => exact h ▸ accounted_start
  | step _ hok hnext ih => exact ih.next hok hnext

lemma addEvents (event : E) {n : ℕ} (hn : n ≤ 2 ^ 32) :
    ∃ q, runFrom next (List.replicate n (.addEventToBuffer event true)) start = some q ∧ q.Accounted ∧
      q.table.size = n ∧ q.table.m_oldEventIDs = [] := by
  induction n with
  | zero => exact ⟨start, rfl, accounted_start, rfl, rfl⟩
  | succ n ih =>
    obtain ⟨q, hrun, h, hsize, hold⟩ := ih (by omega)
    refine ⟨q.addEventToBuffer event true, ?_, h.addEventToBuffer (by omega) event true, ?_, ?_⟩
    · rw [List.replicate_succ', runFrom_append, hrun]
      rfl
    · have hevents := EventTable.saveEvent_spec h.numbered (by omega) event
      have hlength := (EventTable.ids_set hevents.1 event q.table.m_oldEventIDs).length_eq
      rw [EventTable.length_ids, List.length_cons, EventTable.length_ids, hsize, EventTable.size] at hlength
      rw [← hlength, ← hevents.2.1]
      rfl
    · have hsave : (q.table.saveEvent event).2.m_oldEventIDs = [] := by
        rw [EventTable.saveEvent, hold]
      exact hsave

end Queue

open Queue

/-- As long as there is an id left for each event, no two events share one, and the buffer leads to every event
once. -/
theorem event_ids_distinct {q : Queue E} (h : Reachable (fun q => q = start) Queue.next FewStored q) :
    (q.table.size < 2 ^ 32 → ∀ event, q.table.m_events.contains (q.table.saveEvent event).1 = false) ∧
      q.buffer.Perm q.table.ids ∧ (q.saved.map some).Perm (q.returned ++ q.discarded ++ q.stored) := by
  have haccounted := accounted_of_reachable h
  refine ⟨fun hsize event => ?_, haccounted.buffer, haccounted.events⟩
  exact (EventTable.saveEvent_spec haccounted.numbered hsize event).1

theorem event_ids_returned : ∃ q : Queue ℕ, q.returned = [some 7] ∧ q.discarded = [some 8] ∧
    (q.saved.map some).Perm (q.returned ++ q.discarded ++ q.stored) := by
  have hfew (q : Queue ℕ) (call : Call ℕ) (hsize : q.table.size < 2 ^ 32) : q.FewStored call := fun _ _ _ => hsize
  have h₁ : Reachable (fun q => q = start) Queue.next FewStored _ :=
    Reachable.step (Reachable.start rfl) (e := Call.addEventToBuffer 7 true) (hfew _ _ (by decide)) rfl
  have h₂ : Reachable (fun q => q = start) Queue.next FewStored _ :=
    Reachable.step h₁ (e := Call.addEventToBuffer 8 false) (hfew _ _ (by decide)) rfl
  have h₃ : Reachable (fun q => q = start) Queue.next FewStored _ :=
    Reachable.step h₂ (e := Call.getEvent 0) (hfew _ _ (by decide)) rfl
  exact ⟨_, rfl, rfl, (event_ids_distinct h₃).2.2⟩

/-- With all ids in use, the next is that of the first event. -/
theorem event_id_shared : ∃ q : Queue ℕ,
    runFrom Queue.next (List.replicate (2 ^ 32) (.addEventToBuffer 7 true)) start = some q ∧
      q.table.m_events.contains (q.table.saveEvent 8).1 = true := by
  obtain ⟨q, hrun, h, hsize, hold⟩ := addEvents 7 (le_refl (2 ^ 32))
  refine ⟨q, hrun, ?_⟩
  have hid : (q.table.saveEvent 8).1 = 0 := by
    simp [EventTable.saveEvent, hold, hsize]
  have hnumbered := h.numbered
  rw [EventTable.Numbered, hold, hsize, List.append_nil] at hnumbered
  rw [hid, EventTable.contains_iff_mem, hnumbered.mem_iff, List.mem_range]
  decide

end InputLeap.EventQueue
