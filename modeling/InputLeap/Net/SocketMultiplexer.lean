import Mathlib.Data.List.Nodup
import Mathlib.Logic.Function.Basic
import InputLeap.Lib.Marker
import InputLeap.Lib.Reachable

/-! The thread that polls the sockets and the threads that add and remove them. -/

namespace InputLeap.Net

open InputLeap.Lib

structure SocketJob where
  /-- Ghost: the socket that the job is for. -/
  owner : ℕ
  handle : ℕ
  readable : Bool
  writable : Bool
  deriving DecidableEq

inductive Content
  | cursor
  /-- A null pointer. -/
  | removed
  | job (j : SocketJob)
  deriving DecidableEq

/-- An element of the list of jobs, where the number stands for the iterators that point to it. -/
structure JobNode where
  id : ℕ
  content : Content
  deriving DecidableEq

def JobNode.job? (n : JobNode) : Option SocketJob :=
  match n.content with
  | .job j => some j
  | _ => none

lemma JobNode.job?_eq_some {n : JobNode} {j : SocketJob} : n.job? = some j ↔ n.content = .job j := by
  rw [job?]
  cases n.content <;> simp

def JobNode.isJob (n : JobNode) : Bool := n.job?.isSome

structure Revents where
  pollIn : Bool
  pollOut : Bool
  pollErr : Bool
  pollNval : Bool
  deriving DecidableEq

structure PollEntry where
  /-- Ghost: the socket whose job it was collected from. -/
  owner : ℕ
  socket : ℕ
  pollIn : Bool
  pollOut : Bool
  revents : Revents
  deriving DecidableEq

def PollEntry.of (j : SocketJob) : PollEntry := ⟨j.owner, j.handle, j.readable, j.writable, ⟨false, false, false, false⟩⟩

def PollEntry.source (e : PollEntry) : SocketJob := ⟨e.owner, e.socket, e.pollIn, e.pollOut⟩

inductive JobStatus
  | stop
  | keep
  | new (handle : ℕ) (readable writable : Bool)
  deriving DecidableEq

structure SocketMultiplexer where
  socketJobs : List JobNode
  socketJobMap : List (ℕ × ℕ)
  update : Bool
  jobsAreReady : Bool
  /-- Ghost: no element has had this number or a larger one. -/
  nextId : ℕ

namespace SocketMultiplexer

def new : SocketMultiplexer := ⟨[], [], false, false, 0⟩

def find? (m : SocketMultiplexer) (socket : ℕ) : Option ℕ := (m.socketJobMap.find? (·.1 = socket)).map Prod.snd

def content? (m : SocketMultiplexer) (id : ℕ) : Option Content :=
  (m.socketJobs.find? (·.id = id)).map JobNode.content

def setContent (m : SocketMultiplexer) (id : ℕ) (c : Content) : SocketMultiplexer :=
  { m with socketJobs := m.socketJobs.map fun n => if n.id = id then { n with content := c } else n }

def insert (m : SocketMultiplexer) (before : List JobNode) (c : Content) (after : List JobNode) : ℕ × SocketMultiplexer :=
  (m.nextId, { m with socketJobs := before ++ ⟨m.nextId, c⟩ :: after, nextId := m.nextId + 1 })

def addSocket (m : SocketMultiplexer) (socket handle : ℕ) (readable writable : Bool) : SocketMultiplexer :=
  let job := .job ⟨socket, handle, readable, writable⟩
  match m.find? socket with
  | none =>
    let (j, m) := m.insert m.socketJobs job []
    { m with update := true, socketJobMap := (socket, j) :: m.socketJobMap }
  | some j => { m.setContent j job with update := true }

def removeSocket (m : SocketMultiplexer) (socket : ℕ) : SocketMultiplexer :=
  match m.find? socket with
  | some j => if m.content? j = some .removed then m else { m.setContent j .removed with update := true }
  | none => m

def newCursor (m : SocketMultiplexer) : ℕ × SocketMultiplexer := m.insert [] .cursor m.socketJobs

def nextCursor (m : SocketMultiplexer) (cursor : ℕ) : Option ℕ × SocketMultiplexer :=
  let (j, jobs) := Marker.advance (fun n => decide (n.id = cursor)) JobNode.isJob m.socketJobs
  (j.map JobNode.id, { m with socketJobs := jobs })

def deleteCursor (m : SocketMultiplexer) (cursor : ℕ) : SocketMultiplexer :=
  { m with socketJobs := m.socketJobs.filter fun n => !decide (n.id = cursor) }

def collect (m : SocketMultiplexer) : List PollEntry × SocketMultiplexer :=
  let (cursor, m) := { m with update := false }.newCursor
  let (nodes, jobs) := Marker.walk (fun n => decide (n.id = cursor)) JobNode.isJob m.socketJobs.length m.socketJobs
  (nodes.filterMap fun n => n.job?.map PollEntry.of, { m with socketJobs := jobs }.deleteCursor cursor)

def serviced (m : SocketMultiplexer) (j : ℕ) (job : SocketJob) : JobStatus → SocketMultiplexer
  | .stop => { m.setContent j .removed with update := true }
  | .keep => m
  | .new handle readable writable =>
    { m.setContent j (.job ⟨job.owner, handle, readable, writable⟩) with update := true }

def sweep (m : SocketMultiplexer) : SocketMultiplexer :=
  let gone := m.socketJobMap.filter fun e => m.content? e.2 = some .removed
  { m with
    socketJobMap := m.socketJobMap.filter fun e => m.content? e.2 ≠ some .removed
    socketJobs := m.socketJobs.filter fun n => n.id ∉ gone.map Prod.snd
    update := m.update || !gone.isEmpty }

end SocketMultiplexer

inductive Party
  | service
  | caller (n : ℕ)
  deriving DecidableEq

inductive Request
  | add (socket handle : ℕ) (readable writable : Bool)
  | remove (socket : ℕ)
  deriving DecidableEq

def Request.apply : Request → SocketMultiplexer → SocketMultiplexer
  | add socket handle readable writable, m => m.addSocket socket handle readable writable
  | remove socket, m => m.removeSocket socket

inductive CallerPlace
  | outside
  | lockedOut (r : Request)
  | locked (r : Request)
  | done
  deriving DecidableEq

inductive ServicePlace
  | outside
  | lockedOut
  | locked
  | collected
  | running (i cursor : ℕ) (jobCursor : Option ℕ)
  | finished
  | swept
  deriving DecidableEq

/-- Whether the list may be changed from there. -/
def ServicePlace.inside : ServicePlace → Bool
  | .outside | .lockedOut => false
  | .locked | .collected | .running .. | .finished | .swept => true

structure Service where
  mux : SocketMultiplexer
  pfds : List PollEntry
  place : ServicePlace
  callers : ℕ → CallerPlace
  jobListLockLocker : Option Party
  jobListLocker : Option Party
  /-- Ghost: the elements whose jobs have been run with the results of the last poll. -/
  ran : List ℕ

inductive ServiceStep
  | callerLocksOut (n : ℕ) (r : Request)
  | callerLocks (n : ℕ)
  | callerActs (n : ℕ)
  | callerUnlocks (n : ℕ)
  | locksOut
  | locks
  | collects
  /-- With what the poll returns for each entry, if it does not fail and returns any. -/
  | polls (results : Option (ℕ → Revents))
  | runs (status : JobStatus)
  | finishes
  | sweeps
  | unlocks

namespace Service

def start : Service := ⟨.new, [], .outside, fun _ => .outside, none, none, []⟩

def Initial (s : Service) : Prop := s = start

def setCaller (s : Service) (n : ℕ) (p : CallerPlace) : Service := { s with callers := Function.update s.callers n p }

def unlockJobList (s : Service) : Service :=
  { s with
    jobListLocker := none
    mux := { s.mux with jobsAreReady := !s.mux.socketJobMap.isEmpty } }

def beginRuns (s : Service) : Service :=
  let (cursor, m) := s.mux.newCursor
  let (j, m) := m.nextCursor cursor
  { s with mux := m, place := .running 0 cursor j, ran := [] }

def runJob (s : Service) (i cursor j : ℕ) (status : JobStatus) : Service :=
  let (s, i) :=
    match s.mux.content? j with
    | some (.job job) => ({ s with mux := s.mux.serviced j job status, ran := j :: s.ran }, i + 1)
    | _ => (s, i)
  let (j, m) := s.mux.nextCursor cursor
  { s with mux := m, place := .running i cursor j }

def next (s : Service) : ServiceStep → Option Service
  | .callerLocksOut n r =>
    if s.callers n = .outside ∧ s.jobListLockLocker = none then
      some { s.setCaller n (.lockedOut r) with jobListLockLocker := some (.caller n) }
    else none
  | .callerLocks n =>
    match s.callers n with
    | .lockedOut r =>
      if s.jobListLocker = none then
        some { s.setCaller n (.locked r) with jobListLocker := some (.caller n), jobListLockLocker := none }
      else none
    | _ => none
  | .callerActs n =>
    match s.callers n with
    | .locked r => some { s.setCaller n .done with mux := r.apply s.mux }
    | _ => none
  | .callerUnlocks n => if s.callers n = .done then some (s.setCaller n .outside).unlockJobList else none
  | .locksOut =>
    if s.place = .outside ∧ s.mux.jobsAreReady ∧ s.jobListLockLocker = none then
      some { s with place := .lockedOut, jobListLockLocker := some .service }
    else none
  | .locks =>
    if s.place = .lockedOut ∧ s.jobListLocker = none then
      some { s with place := .locked, jobListLocker := some .service, jobListLockLocker := none }
    else none
  | .collects =>
    if s.place = .locked then
      if s.mux.update then
        let (pfds, m) := s.mux.collect
        some { s with mux := m, pfds := pfds, place := .collected }
      else some { s with place := .collected }
    else none
  | .polls results =>
    if s.place = .collected then
      match results with
      | some results =>
        let pfds := s.pfds.mapIdx fun i e => { e with revents := results i }
        if s.pfds = [] then none else some { s with pfds := pfds }.beginRuns
      | none => some { s with place := .finished, ran := [] }
    else none
  | .runs status =>
    match s.place with
    | .running i cursor (some j) => if i < s.pfds.length then some (s.runJob i cursor j status) else none
    | _ => none
  | .finishes =>
    match s.place with
    | .running i cursor j =>
      if i < s.pfds.length ∧ j ≠ none then none
      else some { s with mux := s.mux.deleteCursor cursor, place := .finished }
    | _ => none
  | .sweeps => if s.place = .finished then some { s with mux := s.mux.sweep, place := .swept } else none
  | .unlocks => if s.place = .swept then some { s.unlockJobList with place := .outside } else none

/-- The job that would be run next is run with the entry that was collected from a job of its socket with its handle, and
has not been run with these results before. -/
def Matched (s : Service) : Prop := ∀ i cursor j, s.place = .running i cursor (some j) → i < s.pfds.length →
  ∃ e job, s.pfds[i]? = some e ∧ s.mux.content? j = some (.job job) ∧ (job.owner, j) ∈ s.mux.socketJobMap ∧
    e.owner = job.owner ∧ e.socket = job.handle ∧ j ∉ s.ran

end Service

namespace SocketMultiplexer

variable {m : SocketMultiplexer}

def jobs (m : SocketMultiplexer) : List SocketJob := m.socketJobs.filterMap JobNode.job?

def NoCursor (m : SocketMultiplexer) : Prop := ∀ n ∈ m.socketJobs, n.content ≠ .cursor

/-- The elements are told apart by their numbers, and those with jobs are where the map says. -/
structure Sound (m : SocketMultiplexer) : Prop where
  nodup : (m.socketJobs.map JobNode.id).Nodup
  fresh : ∀ n ∈ m.socketJobs, n.id < m.nextId
  mapped : ∀ n ∈ m.socketJobs, ∀ job, n.job? = some job → (job.owner, n.id) ∈ m.socketJobMap

lemma content?_of_mem (h : m.Sound) {n : JobNode} (hn : n ∈ m.socketJobs) : m.content? n.id = some n.content := by
  obtain ⟨n', hfind⟩ : ∃ n', m.socketJobs.find? (fun n' => decide (n'.id = n.id)) = some n' :=
    Option.isSome_iff_exists.mp (List.find?_isSome.mpr ⟨n, hn, decide_eq_true rfl⟩)
  have hid : n'.id = n.id := by simpa using List.find?_some hfind
  rw [content?, hfind, List.inj_on_of_nodup_map h.nodup (List.mem_of_find?_eq_some hfind) hn hid]
  rfl

lemma Sound.of_sublist (h : m.Sound) {l l' : List JobNode} (hperm : l.Perm l') (hl : l'.Sublist m.socketJobs) :
    Sound { m with socketJobs := l } where
  nodup := (hperm.map _).nodup_iff.mpr (h.nodup.sublist (hl.map _))
  fresh n hn := h.fresh n (hl.subset (hperm.subset hn))
  mapped n hn := h.mapped n (hl.subset (hperm.subset hn))

lemma setContent_ids (m : SocketMultiplexer) (id : ℕ) (c : Content) :
    (m.setContent id c).socketJobs.map JobNode.id = m.socketJobs.map JobNode.id := by
  rw [setContent, List.map_map]
  apply List.map_congr_left
  intro n _
  rw [Function.comp_apply]
  split_ifs <;> rfl

lemma Sound.setContent (h : m.Sound) {id : ℕ} {c : Content}
    (hc : ∀ job, c = .job job → (job.owner, id) ∈ m.socketJobMap) : (m.setContent id c).Sound where
  nodup := (setContent_ids m id c).symm ▸ h.nodup
  fresh n hn := by
    obtain ⟨n', hn', heq⟩ := List.mem_map.mp hn
    have hfresh := h.fresh n' hn'
    rw [← heq]
    split_ifs <;> exact hfresh
  mapped n hn job hjob := by
    obtain ⟨n', hn', heq⟩ := List.mem_map.mp hn
    have hmapped := h.mapped n' hn' job
    rw [← heq] at hjob ⊢
    split_ifs at hjob ⊢ with hid
    · rw [← hid] at hc
      exact hc job (JobNode.job?_eq_some.mp hjob)
    · exact hmapped hjob

lemma Sound.insert (h : m.Sound) {before after : List JobNode} {c : Content} (hsplit : m.socketJobs = before ++ after)
    {l : List (ℕ × ℕ)} (hl : ∀ e ∈ m.socketJobMap, e ∈ l) (hc : ∀ job, c = .job job → (job.owner, m.nextId) ∈ l)
    (update ready : Bool) :
    Sound ⟨before ++ ⟨m.nextId, c⟩ :: after, l, update, ready, m.nextId + 1⟩ := by
  have hmem : ∀ n, n ∈ before ++ ⟨m.nextId, c⟩ :: after ↔ n = ⟨m.nextId, c⟩ ∨ n ∈ m.socketJobs := by
    intro n
    rw [hsplit, List.mem_append, List.mem_cons, List.mem_append]
    tauto
  refine ⟨?_, ?_, ?_⟩
  · have hperm : (before ++ ⟨m.nextId, c⟩ :: after).Perm (⟨m.nextId, c⟩ :: m.socketJobs) :=
      hsplit ▸ List.perm_middle
    rw [(hperm.map _).nodup_iff, List.map_cons, List.nodup_cons]
    refine ⟨fun hid => ?_, h.nodup⟩
    obtain ⟨n, hn, heq⟩ := List.mem_map.mp hid
    exact (h.fresh n hn).ne heq
  · intro n hn
    rcases (hmem n).mp hn with rfl | hn
    · exact Nat.lt_succ_self _
    · exact (h.fresh n hn).trans (Nat.lt_succ_self _)
  · intro n hn job hjob
    rcases (hmem n).mp hn with rfl | hn
    · exact hc job (JobNode.job?_eq_some.mp hjob)
    · exact hl _ (h.mapped n hn job hjob)

/-- Where a cursor is: behind the elements that are done and the one whose turn it is, if there is one. -/
structure At (m : SocketMultiplexer) (cursor : ℕ) (done : List JobNode) (current : Option JobNode)
    (left : List JobNode) : Prop where
  split : m.socketJobs = done ++ current.toList ++ ⟨cursor, .cursor⟩ :: left
  plain : ∀ n ∈ done ++ current.toList ++ left, n.content ≠ .cursor
  isJob : ∀ n, current = some n → n.isJob = true
  ends : current = none → ∀ n ∈ left, n.isJob = false

lemma ids_ne {cursor : ℕ} {before left : List JobNode}
    (hnodup : ((before ++ ⟨cursor, .cursor⟩ :: left).map JobNode.id).Nodup) : ∀ n ∈ before ++ left, n.id ≠ cursor := by
  have hmiddle : (before ++ ⟨cursor, .cursor⟩ :: left).Perm (⟨cursor, .cursor⟩ :: (before ++ left)) := List.perm_middle
  have hperm := hmiddle.map JobNode.id
  rw [hperm.nodup_iff, List.map_cons, List.nodup_cons] at hnodup
  intro n hn heq
  exact hnodup.1 (List.mem_map.mpr ⟨n, hn, heq⟩)

lemma nextCursor_at (h : m.Sound) {cursor : ℕ} {before left : List JobNode}
    (hsplit : m.socketJobs = before ++ ⟨cursor, .cursor⟩ :: left) (hplain : ∀ n ∈ before ++ left, n.content ≠ .cursor) :
    ∃ skipped current left', (m.nextCursor cursor).1 = current.map JobNode.id ∧
      (m.nextCursor cursor).2.At cursor (before ++ skipped) current left' ∧ left = skipped ++ current.toList ++ left' ∧
      (∀ n ∈ skipped, n.isJob = false) := by
  have hids := ids_ne (hsplit ▸ h.nodup)
  have hbefore : ∀ n ∈ before, decide (n.id = cursor) = false :=
    fun n hn => decide_eq_false (hids n (List.mem_append_left _ hn))
  rw [nextCursor, hsplit]
  rcases Marker.split_items JobNode.isJob left with hnone | ⟨skipped, a, after, rfl, hskipped, ha⟩
  · rw [Marker.advance_none hbefore (decide_eq_true rfl) hnone]
    refine ⟨[], none, left, rfl, ⟨by simp, by simpa using hplain, fun _ hn => ?_, fun _ => hnone⟩, by simp, by simp⟩
    exact absurd hn.symm (Option.some_ne_none _)
  · rw [Marker.advance_some hbefore (decide_eq_true rfl) hskipped ha]
    refine ⟨skipped, some a, after, rfl, ⟨by simp, by simpa [or_assoc] using hplain, ?_, ?_⟩, by simp, hskipped⟩
    · intro n hn
      exact Option.some.inj hn ▸ ha
    · intro hnone
      exact absurd hnone (Option.some_ne_none _)

lemma At.perm {cursor : ℕ} {done left : List JobNode} {current : Option JobNode} (h : m.At cursor done current left) :
    m.socketJobs.Perm (⟨cursor, .cursor⟩ :: (done ++ current.toList ++ left)) := h.split ▸ List.perm_middle

lemma nextCursor_perm (h : m.Sound) {cursor : ℕ} {before left : List JobNode}
    (hsplit : m.socketJobs = before ++ ⟨cursor, .cursor⟩ :: left) (hplain : ∀ n ∈ before ++ left, n.content ≠ .cursor) :
    (m.nextCursor cursor).2.Sound ∧ (m.nextCursor cursor).2.jobs = m.jobs := by
  obtain ⟨skipped, current, left', -, hat, rfl, -⟩ := nextCursor_at h hsplit hplain
  constructor
  · have hperm : (m.nextCursor cursor).2.socketJobs.Perm m.socketJobs := by
      refine hat.perm.trans ?_
      rw [hsplit]
      exact ((List.perm_middle.trans (by simp)).symm)
    exact h.of_sublist hperm (List.Sublist.refl _)
  · rw [jobs, jobs, hat.split, hsplit]
    simp [List.filterMap_append, List.filterMap_cons, JobNode.job?]

lemma newCursor_spec (h : m.Sound) : m.newCursor.2.Sound ∧ m.newCursor.2.jobs = m.jobs ∧
    m.newCursor.2.socketJobs = [] ++ ⟨m.newCursor.1, .cursor⟩ :: m.socketJobs := by
  refine ⟨?_, rfl, rfl⟩
  exact h.insert (List.nil_append _).symm (fun _ he => he) (fun _ hjob => Content.noConfusion hjob) m.update m.jobsAreReady

lemma deleteCursor_at (h : m.Sound) {cursor : ℕ} {before left : List JobNode}
    (hsplit : m.socketJobs = before ++ ⟨cursor, .cursor⟩ :: left) :
    (m.deleteCursor cursor).socketJobs = before ++ left ∧ (m.deleteCursor cursor).Sound ∧
      (m.deleteCursor cursor).jobs = m.jobs := by
  have hids := ids_ne (hsplit ▸ h.nodup)
  have hlist : (m.deleteCursor cursor).socketJobs = before ++ left := by
    obtain ⟨hbefore, hleft⟩ := List.forall_mem_append.mp hids
    rw [deleteCursor, hsplit, List.filter_append, List.filter_cons_of_neg (by simp)]
    rw [List.filter_eq_self.mpr fun n hn => by simp [hbefore n hn], List.filter_eq_self.mpr fun n hn => by simp [hleft n hn]]
  refine ⟨hlist, h.of_sublist (List.Perm.refl _) List.filter_sublist, ?_⟩
  rw [jobs, jobs, hlist, hsplit]
  simp [List.filterMap_append, List.filterMap_cons, JobNode.job?]

lemma collect_spec (h : m.Sound) : m.collect.1.map PollEntry.source = m.jobs ∧
    m.collect.2 = { m with update := false, nextId := m.nextId + 1 } := by
  have hids : ∀ n ∈ m.socketJobs, decide (n.id = m.nextId) = false := fun n hn => decide_eq_false (h.fresh n hn).ne
  have hwalk : (Marker.walk (fun n : JobNode => decide (n.id = m.nextId)) JobNode.isJob (m.socketJobs.length + 1)
      ([] ++ ⟨m.nextId, .cursor⟩ :: m.socketJobs)).1 = _ ∧ List.filter _ _ = _ :=
    Marker.walk_eq (fun _ hn => absurd hn List.not_mem_nil) (decide_eq_true rfl) hids (Nat.le_succ _)
  obtain ⟨walked, hwalked⟩ : ∃ walked, Marker.walk (fun n : JobNode => decide (n.id = m.nextId)) JobNode.isJob
      (m.socketJobs.length + 1) ([] ++ ⟨m.nextId, .cursor⟩ :: m.socketJobs) = walked := ⟨_, rfl⟩
  have hcollect : m.collect = (walked.1.filterMap fun n => n.job?.map PollEntry.of,
      ⟨walked.2.filter fun n => !decide (n.id = m.nextId), m.socketJobMap, false, m.jobsAreReady, m.nextId + 1⟩) := by
    rw [← hwalked]
    rfl
  rw [hwalked] at hwalk
  rw [hcollect, hwalk.1, hwalk.2]
  refine ⟨?_, rfl⟩
  dsimp only
  rw [jobs, List.map_filterMap, List.filterMap_filter]
  apply List.filterMap_congr
  intro n _
  rw [JobNode.isJob]
  cases n.job? <;> rfl

lemma setContent_noCursor (hno : m.NoCursor) {id : ℕ} {c : Content} (hc : c ≠ .cursor) : (m.setContent id c).NoCursor := by
  intro n hn
  obtain ⟨n', hn', rfl⟩ := List.mem_map.mp hn
  split_ifs
  · exact hc
  · exact hno n' hn'

lemma setContent_at (h : m.Sound) {cursor : ℕ} {done left : List JobNode} {n : JobNode}
    (hat : m.At cursor done (some n) left) (c : Content) :
    (m.setContent n.id c).socketJobs = done ++ [{ n with content := c }] ++ ⟨cursor, .cursor⟩ :: left := by
  have hnodup := h.nodup
  rw [hat.split, Option.toList_some, List.append_assoc, List.singleton_append, (List.perm_middle.map _).nodup_iff,
    List.map_cons, List.nodup_cons] at hnodup
  have hother : ∀ n' ∈ done ++ ⟨cursor, .cursor⟩ :: left, (if n'.id = n.id then { n' with content := c } else n') = n' := by
    intro n' hn'
    exact if_neg fun heq => hnodup.1 (List.mem_map.mpr ⟨n', hn', heq⟩)
  obtain ⟨hdone, hleft⟩ := List.forall_mem_append.mp hother
  rw [setContent, hat.split, List.map_append, List.map_append, Option.toList_some, List.map_singleton, if_pos rfl,
    List.map_congr_left hdone, List.map_congr_left hleft, List.map_id', List.map_id']

lemma serviced_spec (h : m.Sound) {cursor : ℕ} {done left : List JobNode} {n : JobNode}
    (hat : m.At cursor done (some n) left) {job : SocketJob} (hjob : n.job? = some job) (status : JobStatus) :
    (m.serviced n.id job status).Sound ∧
      (∃ c, c ≠ .cursor ∧
        (m.serviced n.id job status).socketJobs = (done ++ [⟨n.id, c⟩]) ++ ⟨cursor, .cursor⟩ :: left) ∧
      ((m.serviced n.id job status).update = false → m.serviced n.id job status = m) := by
  have hn : n ∈ m.socketJobs := by
    rw [hat.split]
    simp
  cases status with
  | stop =>
    have hset : (m.setContent n.id .removed).Sound := h.setContent fun _ heq => Content.noConfusion heq
    refine ⟨⟨hset.nodup, hset.fresh, hset.mapped⟩, ⟨.removed, Content.noConfusion, setContent_at h hat .removed⟩, ?_⟩
    exact fun hfalse => absurd hfalse.symm Bool.false_ne_true
  | keep =>
    refine ⟨h, ⟨n.content, ?_, hat.split⟩, fun _ => rfl⟩
    rw [JobNode.job?_eq_some.mp hjob]
    exact Content.noConfusion
  | new handle readable writable =>
    have hset : (m.setContent n.id (.job ⟨job.owner, handle, readable, writable⟩)).Sound :=
      h.setContent fun _ heq => Content.job.inj heq ▸ h.mapped n hn job hjob
    refine ⟨⟨hset.nodup, hset.fresh, hset.mapped⟩, ⟨_, Content.noConfusion, setContent_at h hat _⟩, ?_⟩
    exact fun hfalse => absurd hfalse.symm Bool.false_ne_true

lemma addSocket_spec (h : m.Sound) (hno : m.NoCursor) (socket handle : ℕ) (readable writable : Bool) :
    (m.addSocket socket handle readable writable).Sound ∧ (m.addSocket socket handle readable writable).NoCursor ∧
      (m.addSocket socket handle readable writable).update = true := by
  rw [addSocket]
  cases hfind : m.find? socket with
  | none =>
    refine ⟨?_, ?_, rfl⟩
    · refine h.insert (List.append_nil _).symm (fun e he => List.mem_cons_of_mem _ he) ?_ true m.jobsAreReady
      intro job hjob
      rw [← Content.job.inj hjob]
      exact List.mem_cons_self
    · exact List.forall_mem_append.mpr ⟨hno, List.forall_mem_singleton.mpr Content.noConfusion⟩
  | some j =>
    refine ⟨?_, ?_, rfl⟩
    · have hmem : (socket, j) ∈ m.socketJobMap := by
        obtain ⟨e, hentry, rfl⟩ := Option.map_eq_some_iff.mp hfind
        have hkey : e.1 = socket := by simpa using List.find?_some hentry
        exact hkey ▸ List.mem_of_find?_eq_some hentry
      have hset : (m.setContent j (.job ⟨socket, handle, readable, writable⟩)).Sound :=
        h.setContent fun job hjob => Content.job.inj hjob ▸ hmem
      exact ⟨hset.nodup, hset.fresh, hset.mapped⟩
    · exact setContent_noCursor hno Content.noConfusion

lemma removeSocket_spec (h : m.Sound) (hno : m.NoCursor) (socket : ℕ) : (m.removeSocket socket).Sound ∧
    (m.removeSocket socket).NoCursor ∧ ((m.removeSocket socket).update = true ∨ m.removeSocket socket = m) := by
  rw [removeSocket]
  cases m.find? socket with
  | none => exact ⟨h, hno, .inr rfl⟩
  | some j =>
    dsimp only
    split_ifs
    · exact ⟨h, hno, .inr rfl⟩
    · have hset : (m.setContent j .removed).Sound := h.setContent fun _ hjob => Content.noConfusion hjob
      exact ⟨⟨hset.nodup, hset.fresh, hset.mapped⟩, setContent_noCursor hno Content.noConfusion, .inl rfl⟩

lemma sweep_spec (h : m.Sound) (hno : m.NoCursor) : m.sweep.Sound ∧ m.sweep.NoCursor ∧ m.sweep.jobs = m.jobs ∧
    (m.sweep.update = false → m.update = false) := by
  have hgone : ∀ id ∈ (m.socketJobMap.filter fun e => decide (m.content? e.2 = some .removed)).map Prod.snd,
      m.content? id = some .removed := by
    intro id hid
    obtain ⟨e, he, rfl⟩ := List.mem_map.mp hid
    exact of_decide_eq_true (List.mem_filter.mp he).2
  have hjob : ∀ n ∈ m.socketJobs, ∀ job, n.job? = some job → m.content? n.id ≠ some .removed := by
    intro n hn job hjob
    rw [content?_of_mem h hn, JobNode.job?_eq_some.mp hjob]
    exact fun heq => Content.noConfusion (Option.some.inj heq)
  refine ⟨⟨?_, ?_, ?_⟩, ?_, ?_, ?_⟩
  · exact h.nodup.sublist (List.filter_sublist.map _)
  · exact fun n hn => h.fresh n (List.mem_filter.mp hn).1
  · intro n hn job hn'
    have hmem := (List.mem_filter.mp hn).1
    exact List.mem_filter.mpr ⟨h.mapped n hmem job hn', decide_eq_true (hjob n hmem job hn')⟩
  · exact fun n hn => hno n (List.mem_filter.mp hn).1
  · rw [jobs, jobs, sweep, List.filterMap_filter]
    apply List.filterMap_congr
    intro n hn
    cases hn' : n.job? with
    | none => simp
    | some job => exact if_pos (decide_eq_true (show n.id ∉ _ from fun hid => hjob n hn job hn' (hgone n.id hid)))
  · exact fun hupdate => (Bool.or_eq_false_iff.mp hupdate).1

end SocketMultiplexer

end InputLeap.Net
