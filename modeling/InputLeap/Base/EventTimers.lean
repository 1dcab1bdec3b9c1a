import InputLeap.Lib.Heap
import InputLeap.Lib.Reachable
import Mathlib.Algebra.Order.Ring.Rat
import Mathlib.Data.Finset.Basic
import Mathlib.Data.Rat.Floor
import Mathlib.Tactic.Linarith

/-! The timers of an event queue. Their remaining times count from the last check of a stopwatch that they share. -/

namespace InputLeap.EventQueue

open InputLeap.Lib

structure Timer where
  m_timer : ℕ
  m_timeout : ℚ
  target : ℕ
  m_oneShot : Bool
  m_time : ℚ

structure TimerEvent where
  m_timer : ℕ
  m_count : ℕ

namespace Timer

def reset (t : Timer) : Timer := { t with m_time := t.m_timeout }

def sub (t : Timer) (dt : ℚ) : Timer := { t with m_time := t.m_time - dt }

def fillEvent (t : Timer) : TimerEvent :=
  ⟨t.m_timer, if t.m_time ≤ 0 then ⌊(t.m_timeout - t.m_time) / t.m_timeout⌋.toNat % 2 ^ 32 else 0⟩

end Timer

structure TimerQueue where
  /-- The time of the system. -/
  now : ℚ
  /-- When the stopwatch was last reset. -/
  mark : ℚ
  m_timers : Finset ℕ
  m_timerQueue : List Timer

namespace TimerQueue

variable (std : HeapAlgorithms Timer.m_time)

def getTime (q : TimerQueue) : ℚ := q.now - q.mark

/-- A new timer has an address that is not in use. -/
def addTimer (oneShot : Bool) (q : TimerQueue) (timer : ℕ) (duration : ℚ) (target : Option ℕ) : Option TimerQueue :=
  if 0 < duration ∧ timer ∉ q.m_timers then
    some { q with
      m_timers := insert timer q.m_timers
      m_timerQueue :=
        std.push q.m_timerQueue ⟨timer, duration, target.getD timer, oneShot, duration + q.getTime⟩ }
  else none

def newTimer (q : TimerQueue) (timer : ℕ) (duration : ℚ) (target : Option ℕ) : Option TimerQueue :=
  addTimer std false q timer duration target

def newOneShotTimer (q : TimerQueue) (timer : ℕ) (duration : ℚ) (target : Option ℕ) : Option TimerQueue :=
  addTimer std true q timer duration target

def deleteTimer (q : TimerQueue) (timer : ℕ) : Option TimerQueue :=
  if timer ∈ q.m_timers then
    some { q with
      m_timers := q.m_timers.erase timer
      m_timerQueue :=
        match q.m_timerQueue.findIdx? fun t => t.m_timer == timer with
        | some i => std.erase q.m_timerQueue i
        | none => q.m_timerQueue }
  else none

def hasTimerExpired (q : TimerQueue) : Option (ℕ × TimerEvent) × TimerQueue :=
  if q.m_timerQueue = [] then (none, q)
  else
    let timers := q.m_timerQueue.map fun t => t.sub q.getTime
    let q := { q with mark := q.now, m_timerQueue := timers }
    match timers with
    | [] => (none, q)
    | timer :: _ =>
      if timer.m_time > 0 then (none, q)
      else
        let rest := std.pop timers
        (some (timer.target, timer.fillEvent),
          { q with m_timerQueue := if timer.m_oneShot then rest else std.push rest timer.reset })

end TimerQueue

inductive TimerCall
  | newTimer (timer : ℕ) (duration : ℚ) (target : Option ℕ)
  | newOneShotTimer (timer : ℕ) (duration : ℚ) (target : Option ℕ)
  | deleteTimer (timer : ℕ)
  | hasTimerExpired
  | wait (elapsed : ℚ)

inductive Happening
  | created (timer : ℕ) (duration : ℚ) (oneShot : Bool) (time : ℚ)
  | deleted (timer : ℕ)
  | reported (timer : ℕ) (time : ℚ)
  | noneExpired (time : ℚ)

structure Timers where
  queue : TimerQueue
  /-- The last comes first. -/
  history : List Happening

namespace Timers

def start : Timers := ⟨⟨0, 0, ∅, []⟩, []⟩

def next (std : HeapAlgorithms Timer.m_time) (s : Timers) : TimerCall → Option Timers
  | .newTimer timer duration target =>
    (s.queue.newTimer std timer duration target).map fun q =>
      ⟨q, .created timer duration false s.queue.now :: s.history⟩
  | .newOneShotTimer timer duration target =>
    (s.queue.newOneShotTimer std timer duration target).map fun q =>
      ⟨q, .created timer duration true s.queue.now :: s.history⟩
  | .deleteTimer timer => (s.queue.deleteTimer std timer).map fun q => ⟨q, .deleted timer :: s.history⟩
  | .hasTimerExpired =>
    match s.queue.hasTimerExpired std with
    | (some (_, event), q) => some ⟨q, .reported event.m_timer s.queue.now :: s.history⟩
    | (none, q) => some ⟨q, .noneExpired s.queue.now :: s.history⟩
  | .wait elapsed => if 0 ≤ elapsed then some { s with queue.now := s.queue.now + elapsed } else none

end Timers

section Schedule

structure Scheduled where
  due : ℚ
  duration : ℚ
  oneShot : Bool

/-- When a timer is next due: its duration after its creation or its last report, unless it has been deleted or was
to be reported only once. -/
def schedule : List Happening → ℕ → Option Scheduled
  | [], _ => none
  | .created p duration oneShot time :: h, timer =>
    if timer = p then some ⟨time + duration, duration, oneShot⟩ else schedule h timer
  | .deleted p :: h, timer => if timer = p then none else schedule h timer
  | .reported p time :: h, timer =>
    if timer = p then
      (schedule h timer).bind fun s => if s.oneShot then none else some { s with due := time + s.duration }
    else schedule h timer
  | .noneExpired _ :: h, timer => schedule h timer

/-- Only a timer that is due is reported, the one that has been due the longest; if none is reported, none is due. -/
def OnTime : List Happening → Prop
  | [] => True
  | .reported p time :: h =>
    (∃ s, schedule h p = some s ∧ s.due ≤ time ∧ ∀ timer s', schedule h timer = some s' → s.due ≤ s'.due) ∧ OnTime h
  | .noneExpired time :: h => (∀ timer s, schedule h timer = some s → time < s.due) ∧ OnTime h
  | .created _ _ _ _ :: h => OnTime h
  | .deleted _ :: h => OnTime h

end Schedule

/-- The timers in the queue are those that are scheduled, with the times that are left from the mark on. -/
structure Tracks (mark : ℚ) (h : List Happening) (timers : List Timer) : Prop where
  distinct : (timers.map Timer.m_timer).Nodup
  due : ∀ t ∈ timers, schedule h t.m_timer = some ⟨mark + t.m_time, t.m_timeout, t.m_oneShot⟩
  scheduled : ∀ timer s, schedule h timer = some s → ∃ t ∈ timers, t.m_timer = timer

namespace Tracks

variable {mark time : ℚ} {h : List Happening} {timers timers' : List Timer} {t : Timer}

lemma perm (hperm : timers.Perm timers') (htracks : Tracks mark h timers) : Tracks mark h timers' := by
  refine ⟨(hperm.map _).nodup_iff.mp htracks.distinct, fun t ht => htracks.due t (hperm.mem_iff.mpr ht), ?_⟩
  intro timer s hs
  obtain ⟨t, ht, heq⟩ := htracks.scheduled timer s hs
  exact ⟨t, hperm.mem_iff.mp ht, heq⟩

lemma elapse (htracks : Tracks mark h timers) (dt : ℚ) : Tracks (mark + dt) h (timers.map fun t => t.sub dt) := by
  refine ⟨?_, ?_, ?_⟩
  · rw [List.map_map]
    exact htracks.distinct
  · intro t ht
    obtain ⟨u, hu, rfl⟩ := List.mem_map.mp ht
    have htime : mark + dt + (u.m_time - dt) = mark + u.m_time := by ring
    exact (htracks.due u hu).trans (by rw [Timer.sub, htime])
  · intro timer s hs
    obtain ⟨t, ht, heq⟩ := htracks.scheduled timer s hs
    exact ⟨_, List.mem_map_of_mem ht, heq⟩

lemma noneExpired (htracks : Tracks mark h timers) : Tracks mark (.noneExpired time :: h) timers :=
  ⟨htracks.distinct, htracks.due, htracks.scheduled⟩

lemma created (htracks : Tracks mark h timers) {p target : ℕ} (hnew : ∀ t ∈ timers, t.m_timer ≠ p) (duration : ℚ)
    (oneShot : Bool) :
    Tracks mark (.created p duration oneShot time :: h)
      (⟨p, duration, target, oneShot, duration + (time - mark)⟩ :: timers) := by
  refine ⟨?_, ?_, ?_⟩
  · refine List.nodup_cons.mpr ⟨fun hmem => ?_, htracks.distinct⟩
    obtain ⟨t, ht, heq⟩ := List.mem_map.mp hmem
    exact hnew t ht heq
  · intro t ht
    rcases List.mem_cons.mp ht with rfl | ht
    · have htime : mark + (duration + (time - mark)) = time + duration := by ring
      rw [schedule, if_pos rfl, htime]
    · rw [schedule, if_neg (hnew t ht)]
      exact htracks.due t ht
  · intro timer s hs
    rw [schedule] at hs
    split_ifs at hs with heq
    · exact ⟨_, List.mem_cons_self, heq.symm⟩
    · obtain ⟨t, ht, htimer⟩ := htracks.scheduled timer s hs
      exact ⟨t, List.mem_cons_of_mem _ ht, htimer⟩

lemma removed (htracks : Tracks mark h (t :: timers)) {h' : List Happening} (hself : schedule h' t.m_timer = none)
    (hother : ∀ timer, timer ≠ t.m_timer → schedule h' timer = schedule h timer) : Tracks mark h' timers := by
  obtain ⟨hnot, hdistinct⟩ := List.nodup_cons.mp htracks.distinct
  refine ⟨hdistinct, ?_, ?_⟩
  · intro u hu
    have hne : u.m_timer ≠ t.m_timer := fun heq => hnot (heq ▸ List.mem_map_of_mem hu)
    rw [hother _ hne]
    exact htracks.due u (List.mem_cons_of_mem t hu)
  · intro timer s hs
    have hne : timer ≠ t.m_timer := by
      rintro rfl
      rw [hself] at hs
      cases hs
    rw [hother _ hne] at hs
    obtain ⟨u, hu, heq⟩ := htracks.scheduled timer s hs
    rcases List.mem_cons.mp hu with rfl | hu
    · exact absurd heq.symm hne
    · exact ⟨u, hu, heq⟩

lemma deleted (htracks : Tracks mark h (t :: timers)) : Tracks mark (.deleted t.m_timer :: h) timers := by
  apply htracks.removed
  · rw [schedule, if_pos rfl]
  · intro timer hne
    rw [schedule, if_neg hne]

lemma deleted_missing (htracks : Tracks mark h timers) {p : ℕ} (hmissing : ∀ t ∈ timers, t.m_timer ≠ p) :
    Tracks mark (.deleted p :: h) timers := by
  refine ⟨htracks.distinct, ?_, ?_⟩
  · intro t ht
    rw [schedule, if_neg (hmissing t ht)]
    exact htracks.due t ht
  · intro timer s hs
    rw [schedule] at hs
    split_ifs at hs
    exact htracks.scheduled timer s hs

lemma reported_last (htracks : Tracks mark h (t :: timers)) (hshot : t.m_oneShot = true) :
    Tracks mark (.reported t.m_timer time :: h) timers := by
  apply htracks.removed
  · rw [schedule, if_pos rfl, htracks.due t List.mem_cons_self, Option.bind_some, if_pos hshot]
  · intro timer hne
    rw [schedule, if_neg hne]

lemma reported_again (htracks : Tracks time h (t :: timers)) (hshot : t.m_oneShot = false) :
    Tracks time (.reported t.m_timer time :: h) (t.reset :: timers) := by
  obtain ⟨hnot, -⟩ := List.nodup_cons.mp htracks.distinct
  refine ⟨htracks.distinct, ?_, ?_⟩
  · intro u hu
    rcases List.mem_cons.mp hu with rfl | hu
    · have hself : t.reset.m_timer = t.m_timer := rfl
      rw [schedule, hself, if_pos rfl, htracks.due t List.mem_cons_self, Option.bind_some]
      simp [hshot, Timer.reset]
    · have hne : u.m_timer ≠ t.m_timer := fun heq => hnot (heq ▸ List.mem_map_of_mem hu)
      rw [schedule, if_neg hne]
      exact htracks.due u (List.mem_cons_of_mem t hu)
  · intro timer s hs
    by_cases heq : timer = t.m_timer
    · exact ⟨t.reset, List.mem_cons_self, heq.symm⟩
    · rw [schedule, if_neg heq] at hs
      obtain ⟨u, hu, htimer⟩ := htracks.scheduled timer s hs
      rcases List.mem_cons.mp hu with rfl | hu
      · exact absurd htimer.symm heq
      · exact ⟨u, List.mem_cons_of_mem _ hu, htimer⟩

end Tracks

namespace Timers

variable {std : HeapAlgorithms Timer.m_time} {s s' : Timers} {call : TimerCall} {q : TimerQueue}

structure Kept (s : Timers) : Prop where
  heap : IsHeap Timer.m_time s.queue.m_timerQueue
  alive : ∀ t ∈ s.queue.m_timerQueue, t.m_timer ∈ s.queue.m_timers
  tracks : Tracks s.queue.mark s.history s.queue.m_timerQueue
  onTime : OnTime s.history

lemma kept_start : start.Kept := by
  refine ⟨.nil, by simp [start], ⟨by simp [start], by simp [start], ?_⟩, trivial⟩
  intro timer s hs
  cases hs

lemma Kept.addTimer (h : s.Kept) {oneShot : Bool} {timer : ℕ} {duration : ℚ} {target : Option ℕ}
    (hadd : s.queue.addTimer std oneShot timer duration target = some q) :
    Kept ⟨q, .created timer duration oneShot s.queue.now :: s.history⟩ := by
  rw [TimerQueue.addTimer] at hadd
  split_ifs at hadd with hnew
  cases Option.some.inj hadd
  have hfree : ∀ t ∈ s.queue.m_timerQueue, t.m_timer ≠ timer := by
    rintro t ht rfl
    exact hnew.2 (h.alive t ht)
  have hperm := std.push_perm h.heap ⟨timer, duration, target.getD timer, oneShot, duration + s.queue.getTime⟩
  refine ⟨std.push_isHeap h.heap _, ?_, ?_, h.onTime⟩
  · intro t ht
    rcases List.mem_cons.mp (hperm.mem_iff.mp ht) with rfl | ht
    · exact Finset.mem_insert_self _ _
    · exact Finset.mem_insert_of_mem (h.alive t ht)
  · exact (h.tracks.created hfree duration oneShot).perm hperm.symm

lemma Kept.deleteTimer (h : s.Kept) {timer : ℕ} (hdelete : s.queue.deleteTimer std timer = some q) :
    Kept ⟨q, .deleted timer :: s.history⟩ := by
  rw [TimerQueue.deleteTimer] at hdelete
  split_ifs at hdelete
  cases Option.some.inj hdelete
  have hkept {t : Timer} (ht : t ∈ s.queue.m_timerQueue) (hne : t.m_timer ≠ timer) :
      t.m_timer ∈ s.queue.m_timers.erase timer := Finset.mem_erase.mpr ⟨hne, h.alive t ht⟩
  cases hfind : s.queue.m_timerQueue.findIdx? fun t => t.m_timer == timer with
  | none =>
    have hmissing : ∀ t ∈ s.queue.m_timerQueue, t.m_timer ≠ timer := by
      intro t ht
      simpa using List.findIdx?_eq_none_iff.mp hfind t ht
    exact ⟨h.heap, fun t ht => hkept ht (hmissing t ht), h.tracks.deleted_missing hmissing, h.onTime⟩
  | some i =>
    obtain ⟨hi, htimer, -⟩ := List.findIdx?_eq_some_iff_getElem.mp hfind
    have htimer : s.queue.m_timerQueue[i].m_timer = timer := by simpa using htimer
    have hperm := std.erase_perm (List.getElem?_eq_getElem hi)
    have htracks := h.tracks.perm hperm
    refine ⟨std.erase_isHeap _ _, ?_, ?_, h.onTime⟩
    · intro t ht
      apply hkept (hperm.mem_iff.mpr (List.mem_cons_of_mem _ ht))
      rw [← htimer]
      intro heq
      exact (List.nodup_cons.mp htracks.distinct).1 (heq ▸ List.mem_map_of_mem ht)
    · rw [← htimer]
      exact htracks.deleted

lemma Kept.hasTimerExpired (h : s.Kept) (hnext : s.next std .hasTimerExpired = some s') : s'.Kept := by
  rw [next, TimerQueue.hasTimerExpired] at hnext
  by_cases hempty : s.queue.m_timerQueue = []
  · rw [if_pos hempty] at hnext
    cases Option.some.inj hnext
    refine ⟨h.heap, h.alive, h.tracks.noneExpired, ?_, h.onTime⟩
    intro timer sch hsch
    obtain ⟨t, ht, -⟩ := h.tracks.scheduled timer sch hsch
    rw [hempty] at ht
    cases ht
  -- from here on the times that are left count from now
  have hmark : s.queue.mark + s.queue.getTime = s.queue.now := by
    rw [TimerQueue.getTime]
    ring
  have htracks := h.tracks.elapse s.queue.getTime
  rw [hmark] at htracks
  have hheap : IsHeap Timer.m_time (s.queue.m_timerQueue.map fun t => t.sub s.queue.getTime) :=
    h.heap.map fun a b hab => sub_le_sub_right hab _
  have halive : ∀ t ∈ s.queue.m_timerQueue.map fun t => t.sub s.queue.getTime, t.m_timer ∈ s.queue.m_timers := by
    intro t ht
    obtain ⟨u, hu, rfl⟩ := List.mem_map.mp ht
    exact h.alive u hu
  rw [if_neg hempty] at hnext
  dsimp only at hnext
  cases htimers : s.queue.m_timerQueue.map fun t => t.sub s.queue.getTime with
  | nil => exact absurd (List.map_eq_nil_iff.mp htimers) hempty
  | cons timer rest =>
    rw [htimers] at hnext htracks hheap halive
    dsimp only at hnext
    have hleast (timer' : ℕ) (sch : Scheduled) (hsch : schedule s.history timer' = some sch) :
        s.queue.now + timer.m_time ≤ sch.due := by
      obtain ⟨t, ht, rfl⟩ := htracks.scheduled timer' sch hsch
      rw [htracks.due t ht] at hsch
      rw [← Option.some.inj hsch]
      exact add_le_add_right (hheap.head_le rfl ht) _
    by_cases hleft : timer.m_time > 0
    · rw [if_pos hleft] at hnext
      cases Option.some.inj hnext
      refine ⟨hheap, halive, htracks.noneExpired, ?_, h.onTime⟩
      intro timer' sch hsch
      have := hleast timer' sch hsch
      linarith
    obtain ⟨hperm, hpop⟩ := std.pop_spec hheap
    have hontime : OnTime (.reported timer.fillEvent.m_timer s.queue.now :: s.history) :=
      ⟨⟨_, htracks.due timer List.mem_cons_self, by dsimp only; linarith, hleast⟩, h.onTime⟩
    have hrest : ∀ t ∈ std.pop (timer :: rest), t.m_timer ∈ s.queue.m_timers := fun t ht =>
      halive t (List.mem_cons_of_mem _ (hperm.mem_iff.mp ht))
    rw [if_neg hleft] at hnext
    by_cases hshot : timer.m_oneShot = true
    · rw [if_pos hshot] at hnext
      cases Option.some.inj hnext
      exact ⟨hpop, hrest, (htracks.reported_last hshot).perm hperm.symm, hontime⟩
    · rw [if_neg hshot] at hnext
      cases Option.some.inj hnext
      have hpush := std.push_perm hpop timer.reset
      refine ⟨std.push_isHeap hpop _, ?_, ?_, hontime⟩
      · intro t ht
        rcases List.mem_cons.mp (hpush.mem_iff.mp ht) with rfl | ht
        · exact halive timer List.mem_cons_self
        · exact hrest t ht
      · exact (htracks.reported_again (by simpa using hshot)).perm ((hperm.symm.cons _).trans hpush.symm)

lemma Kept.next (h : s.Kept) (hnext : s.next std call = some s') : s'.Kept := by
  cases call with
  | newTimer timer duration target =>
    obtain ⟨q, hadd, rfl⟩ := Option.map_eq_some_iff.mp hnext
    exact h.addTimer hadd
  | newOneShotTimer timer duration target =>
    obtain ⟨q, hadd, rfl⟩ := Option.map_eq_some_iff.mp hnext
    exact h.addTimer hadd
  | deleteTimer timer =>
    obtain ⟨q, hdelete, rfl⟩ := Option.map_eq_some_iff.mp hnext
    exact h.deleteTimer hdelete
  | hasTimerExpired => exact h.hasTimerExpired hnext
  | wait elapsed =>
    rw [Timers.next] at hnext
    split_ifs at hnext
    cases Option.some.inj hnext
    exact ⟨h.heap, h.alive, h.tracks, h.onTime⟩

end Timers

/-- In every run, for any algorithms that keep heaps, timers are reported on time. -/
theorem timers_onTime {std : HeapAlgorithms Timer.m_time} {calls : List TimerCall} {s : Timers}
    (h : runFrom (Timers.next std) calls Timers.start = some s) : OnTime s.history :=
  (runFrom_invariant (fun _ _ _ hs hnext => Timers.Kept.next hs hnext) Timers.kept_start h).onTime

def timerCalls : List TimerCall :=
  [.newTimer 1 2 none, .newOneShotTimer 2 1 none, .wait 1, .hasTimerExpired, .hasTimerExpired, .wait 3, .hasTimerExpired,
    .deleteTimer 1, .hasTimerExpired]

theorem timerCalls_onTime : ∃ s, runFrom (Timers.next (.sorting Timer.m_time)) timerCalls Timers.start = some s ∧
    OnTime s.history := by
  have hrun : (runFrom (Timers.next (.sorting Timer.m_time)) timerCalls Timers.start).isSome = true := by
    decide +kernel
  obtain ⟨s, hs⟩ := Option.isSome_iff_exists.mp hrun
  exact ⟨s, hs, timers_onTime hs⟩

end InputLeap.EventQueue
