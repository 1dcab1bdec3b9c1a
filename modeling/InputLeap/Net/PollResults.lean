import InputLeap.Net.SocketMultiplexer

/-! The results of a poll find the jobs that were polled for. -/

namespace InputLeap.Net

open InputLeap.Lib

namespace Service

variable {s t : Service}

def Fresh (s : Service) : Prop := s.mux.update = false → s.pfds.map PollEntry.source = s.mux.jobs

structure Running (s : Service) (i cursor : ℕ) (j : Option ℕ) (done : List JobNode) (current : Option JobNode)
    (left : List JobNode) : Prop where
  at' : s.mux.At cursor done current left
  jobCursor : j = current.map JobNode.id
  entries : (s.pfds.drop i).map PollEntry.source = (current.toList ++ left).filterMap JobNode.job?
  ran : ∀ id ∈ s.ran, id ∈ done.map JobNode.id

structure Inv (s : Service) : Prop where
  sound : s.mux.Sound
  fresh : s.Fresh
  caller : ∀ n, (∃ r, s.callers n = .locked r) ∨ s.callers n = .done → s.jobListLocker = some (.caller n)
  service : s.place.inside = true → s.jobListLocker = some .service
  collected : s.place = .collected → s.pfds.map PollEntry.source = s.mux.jobs
  running : ∀ i cursor j, s.place = .running i cursor j → ∃ done current left, s.Running i cursor j done current left
  noCursor : (∀ i cursor j, s.place ≠ .running i cursor j) → s.mux.NoCursor
  once : s.ran.Nodup

lemma Inv.not_inside (h : Inv s) {n : ℕ} (hn : (∃ r, s.callers n = .locked r) ∨ s.callers n = .done) :
    s.place.inside = false := by
  cases hinside : s.place.inside with
  | false => rfl
  | true => exact absurd ((h.caller n hn).symm.trans (h.service hinside)) (by simp)

lemma not_running_of_not_inside (h : s.place.inside = false) (i cursor : ℕ) (j : Option ℕ) :
    s.place ≠ .running i cursor j := by
  intro hplace
  rw [hplace] at h
  exact Bool.false_ne_true h.symm

structure Frame (s t : Service) : Prop where
  mux : t.mux = { s.mux with jobsAreReady := t.mux.jobsAreReady }
  pfds : t.pfds = s.pfds
  ran : t.ran = s.ran

lemma Inv.of_frame (h : Inv s) (hframe : Frame s t)
    (hplace : t.place = s.place ∨ (∀ i cursor j, s.place ≠ .running i cursor j) ∧ t.place ≠ .collected ∧
      ∀ i cursor j, t.place ≠ .running i cursor j)
    (hcaller : ∀ n, (∃ r, t.callers n = .locked r) ∨ t.callers n = .done → t.jobListLocker = some (.caller n))
    (hservice : t.place.inside = true → t.jobListLocker = some .service) : Inv t := by
  obtain ⟨hmux, hpfds, hran⟩ := hframe
  obtain ⟨m, pfds, place, callers, lockLocker, locker, ran⟩ := t
  dsimp only at hmux hpfds hran hplace
  generalize m.jobsAreReady = ready at hmux
  subst hmux hpfds hran
  refine ⟨⟨h.sound.nodup, h.sound.fresh, h.sound.mapped⟩, h.fresh, hcaller, hservice, ?_, ?_, ?_, h.once⟩
  · intro hcollected
    rcases hplace with hsame | ⟨-, hne, -⟩
    · exact h.collected (hsame.symm.trans hcollected)
    · exact absurd hcollected hne
  · intro i cursor j hrunning
    rcases hplace with hsame | ⟨-, -, hne⟩
    · obtain ⟨done, current, left, hat, hj, hentries, hran⟩ := h.running i cursor j (hsame.symm.trans hrunning)
      exact ⟨done, current, left, ⟨hat.split, hat.plain, hat.isJob, hat.ends⟩, hj, hentries, hran⟩
    · exact absurd hrunning (hne i cursor j)
  · intro hne'
    rcases hplace with hsame | ⟨hne, -⟩
    · exact h.noCursor fun i cursor j hrunning => hne' i cursor j (hsame.trans hrunning)
    · exact h.noCursor hne

lemma setCaller_callers (s : Service) (n n' : ℕ) (p : CallerPlace) :
    (s.setCaller n p).callers n' = if n' = n then p else s.callers n' := Function.update_apply s.callers n p n'

lemma Inv.callerLocksOut (h : Inv s) {n : ℕ} {r : Request} (ht : s.next (.callerLocksOut n r) = some t) : Inv t := by
  rw [next] at ht
  split_ifs at ht
  obtain rfl := Option.some.inj ht
  refine h.of_frame ⟨rfl, rfl, rfl⟩ (.inl rfl) ?_ h.service
  intro n' hn'
  dsimp only at hn'
  rw [setCaller_callers] at hn'
  split_ifs at hn'
  · rcases hn' with ⟨r', hlocked⟩ | hdone
    · exact hlocked.elim
    · exact hdone.elim
  · exact h.caller n' hn'

lemma Inv.callerLocks (h : Inv s) {n : ℕ} (ht : s.next (.callerLocks n) = some t) : Inv t := by
  rw [next] at ht
  split at ht
  · split_ifs at ht with hfree
    obtain rfl := Option.some.inj ht
    refine h.of_frame ⟨rfl, rfl, rfl⟩ (.inl rfl) ?_ ?_
    · intro n' hn'
      dsimp only at hn'
      rw [setCaller_callers] at hn'
      split_ifs at hn' with hsame
      · rw [hsame]
      · exact absurd (hfree.symm.trans (h.caller n' hn')).symm (Option.some_ne_none _)
    · intro hinside
      exact absurd (hfree.symm.trans (h.service hinside)).symm (Option.some_ne_none _)
  · exact absurd ht.symm (Option.some_ne_none _)

lemma Inv.callerActs (h : Inv s) {n : ℕ} (ht : s.next (.callerActs n) = some t) : Inv t := by
  rw [next] at ht
  split at ht
  · rename_i r hlocked
    obtain rfl := Option.some.inj ht
    have hinside := h.not_inside (.inl ⟨r, hlocked⟩)
    have hno := h.noCursor (not_running_of_not_inside hinside)
    have happly : (r.apply s.mux).Sound ∧ (r.apply s.mux).NoCursor ∧
        ((r.apply s.mux).update = true ∨ r.apply s.mux = s.mux) := by
      cases r with
      | add socket handle readable writable =>
        obtain ⟨hsound, hno, hupdate⟩ := SocketMultiplexer.addSocket_spec h.sound hno socket handle readable writable
        exact ⟨hsound, hno, .inl hupdate⟩
      | remove socket => exact SocketMultiplexer.removeSocket_spec h.sound hno socket
    obtain ⟨hsound, hno, hupdate⟩ := happly
    refine ⟨hsound, ?_, ?_, h.service, ?_, ?_, fun _ => hno, h.once⟩
    · intro hfalse
      rcases hupdate with htrue | hsame
      · exact absurd (hfalse.symm.trans htrue) Bool.false_ne_true
      · change s.pfds.map PollEntry.source = (r.apply s.mux).jobs
        rw [hsame]
        exact h.fresh ((congrArg SocketMultiplexer.update hsame).symm.trans hfalse)
    · intro n' hn'
      dsimp only at hn'
      rw [setCaller_callers] at hn'
      split_ifs at hn' with hsame
      · exact hsame ▸ h.caller n (.inl ⟨r, hlocked⟩)
      · exact h.caller n' hn'
    · intro hcollected
      rw [show s.place = .collected from hcollected] at hinside
      exact absurd hinside.symm Bool.false_ne_true
    · intro i cursor j hrunning
      exact absurd hrunning (not_running_of_not_inside hinside i cursor j)
  · exact absurd ht.symm (Option.some_ne_none _)

lemma Inv.callerUnlocks (h : Inv s) {n : ℕ} (ht : s.next (.callerUnlocks n) = some t) : Inv t := by
  rw [next] at ht
  split_ifs at ht with hdone
  obtain rfl := Option.some.inj ht
  have hlocker := h.caller n (.inr hdone)
  refine h.of_frame ⟨rfl, rfl, rfl⟩ (.inl rfl) ?_ ?_
  · intro n' hn'
    change (∃ r, (s.setCaller n .outside).callers n' = .locked r) ∨ (s.setCaller n .outside).callers n' = .done at hn'
    rw [setCaller_callers] at hn'
    split_ifs at hn' with hsame
    · rcases hn' with ⟨r', hlocked⟩ | hdone
      · exact hlocked.elim
      · exact hdone.elim
    · have hother := hlocker.symm.trans (h.caller n' hn')
      exact absurd (Party.caller.inj (Option.some.inj hother)).symm hsame
  · intro hinside
    exact absurd (hlocker.symm.trans (h.service hinside)) (by simp)

lemma Inv.locksOut (h : Inv s) (ht : s.next .locksOut = some t) : Inv t := by
  rw [next] at ht
  split_ifs at ht with hplace
  obtain rfl := Option.some.inj ht
  refine h.of_frame ⟨rfl, rfl, rfl⟩ (.inr ⟨?_, by simp, by simp⟩) h.caller fun hinside => ?_
  · rw [hplace.1]
    simp
  · exact absurd hinside Bool.false_ne_true

lemma Inv.locks (h : Inv s) (ht : s.next .locks = some t) : Inv t := by
  rw [next] at ht
  split_ifs at ht with hplace
  obtain rfl := Option.some.inj ht
  refine h.of_frame ⟨rfl, rfl, rfl⟩ (.inr ⟨?_, by simp, by simp⟩) ?_ fun _ => rfl
  · rw [hplace.1]
    simp
  · intro n hn
    exact absurd (hplace.2.symm.trans (h.caller n hn)).symm (Option.some_ne_none _)

lemma Inv.unlocks (h : Inv s) (ht : s.next .unlocks = some t) : Inv t := by
  rw [next] at ht
  split_ifs at ht with hplace
  obtain rfl := Option.some.inj ht
  have hlocker : s.jobListLocker = some .service := h.service (by rw [hplace]; rfl)
  refine h.of_frame ⟨rfl, rfl, rfl⟩ (.inr ⟨?_, by simp, by simp⟩) ?_ fun hinside => ?_
  · rw [hplace]
    simp
  · intro n hn
    exact absurd (hlocker.symm.trans (h.caller n hn)) (by simp)
  · exact absurd hinside Bool.false_ne_true

lemma Inv.collects (h : Inv s) (ht : s.next .collects = some t) : Inv t := by
  rw [next] at ht
  split_ifs at ht with hplace hupdate
  · obtain rfl := Option.some.inj ht
    have hno := h.noCursor (by rw [hplace]; simp)
    obtain ⟨hentries, hmux⟩ := SocketMultiplexer.collect_spec h.sound
    have hsound : s.mux.collect.2.Sound := by
      rw [hmux]
      exact ⟨h.sound.nodup, fun n hn => (h.sound.fresh n hn).trans (Nat.lt_succ_self _), h.sound.mapped⟩
    have hjobs : s.mux.collect.2.jobs = s.mux.jobs := by
      rw [hmux]
      rfl
    have hno' : s.mux.collect.2.NoCursor := by
      rw [hmux]
      exact hno
    exact ⟨hsound, fun _ => hentries.trans hjobs.symm, h.caller, fun _ => h.service (by rw [hplace]; rfl),
      fun _ => hentries.trans hjobs.symm, by simp, fun _ => hno', h.once⟩
  · obtain rfl := Option.some.inj ht
    have hno := h.noCursor (by rw [hplace]; simp)
    have hentries := h.fresh (Bool.eq_false_iff.mpr hupdate)
    exact ⟨h.sound, h.fresh, h.caller, fun _ => h.service (by rw [hplace]; rfl), fun _ => hentries, by simp,
      fun _ => hno, h.once⟩

lemma running_of_at (i : ℕ) {cursor : ℕ} {before left : List JobNode} (hsound : s.mux.Sound)
    (hsplit : s.mux.socketJobs = before ++ ⟨cursor, .cursor⟩ :: left) (hplain : ∀ n ∈ before ++ left, n.content ≠ .cursor)
    (hentries : (s.pfds.drop i).map PollEntry.source = left.filterMap JobNode.job?)
    (hran : ∀ id ∈ s.ran, id ∈ before.map JobNode.id) (place : ServicePlace) :
    ∃ done current left', Running { s with mux := (s.mux.nextCursor cursor).2, place := place } i cursor
      (s.mux.nextCursor cursor).1 done current left' := by
  obtain ⟨skipped, current, left', hj, hat, rfl, hskipped⟩ := SocketMultiplexer.nextCursor_at hsound hsplit hplain
  refine ⟨before ++ skipped, current, left', hat, hj, ?_, ?_⟩
  · have hnone : skipped.filterMap JobNode.job? = [] := by
      apply List.filterMap_eq_nil_iff.mpr
      intro n hn
      exact Option.isSome_eq_false_iff.mp (hskipped n hn) |> Option.isNone_iff_eq_none.mp
    rw [hentries, List.append_assoc, List.filterMap_append, hnone, List.nil_append]
  · intro id hid
    rw [List.map_append]
    exact List.mem_append_left _ (hran id hid)

lemma source_revents (pfds : List PollEntry) (results : ℕ → Revents) :
    (pfds.mapIdx fun i e => { e with revents := results i }).map PollEntry.source = pfds.map PollEntry.source := by
  apply List.ext_getElem
  · simp
  · intro i hi hi'
    simp [PollEntry.source]

lemma Inv.polls (h : Inv s) {results : Option (ℕ → Revents)} (ht : s.next (.polls results) = some t) : Inv t := by
  rw [next.eq_def] at ht
  dsimp only at ht
  by_cases hplace : s.place = .collected
  · rw [if_pos hplace] at ht
    have hno := h.noCursor (by rw [hplace]; simp)
    have hservice : s.jobListLocker = some .service := h.service (by rw [hplace]; rfl)
    cases results with
    | none =>
      obtain rfl := Option.some.inj ht
      exact ⟨h.sound, h.fresh, h.caller, fun _ => hservice, by simp, by simp, fun _ => hno, List.nodup_nil⟩
    | some results =>
      dsimp only at ht
      split_ifs at ht
      obtain rfl := Option.some.inj ht
      have hentries := (source_revents s.pfds results).trans (h.collected hplace)
      obtain ⟨hsound, hjobs, hsplit⟩ := SocketMultiplexer.newCursor_spec h.sound
      obtain ⟨hsound', hjobs'⟩ := SocketMultiplexer.nextCursor_perm hsound hsplit hno
      refine ⟨hsound', fun _ => hentries.trans (hjobs.symm.trans hjobs'.symm), h.caller, fun _ => hservice, ?_, ?_, ?_,
        List.nodup_nil⟩
      · exact fun hplace' => ServicePlace.noConfusion hplace'
      · intro i cursor j hrunning
        obtain ⟨rfl, rfl, rfl⟩ := ServicePlace.running.inj hrunning
        exact running_of_at 0 (s := { s with
          mux := s.mux.newCursor.2
          pfds := s.pfds.mapIdx fun i e => { e with revents := results i }
          ran := [] }) hsound hsplit hno hentries (fun id hid => absurd hid List.not_mem_nil) _
      · intro hne
        exact absurd rfl (hne _ _ _)
  · rw [if_neg hplace] at ht
    exact absurd ht.symm (Option.some_ne_none _)

lemma Running.current_eq {i cursor j : ℕ} {done left : List JobNode} {current : Option JobNode}
    (h : s.Running i cursor (some j) done current left) (hsound : s.mux.Sound) :
    ∃ n job, current = some n ∧ n.id = j ∧ n.job? = some job ∧ s.mux.content? j = some (.job job) ∧
      (s.pfds.drop i).map PollEntry.source = job :: left.filterMap JobNode.job? ∧ n ∈ s.mux.socketJobs := by
  obtain ⟨hat, hj, hentries, -⟩ := h
  cases current with
  | none => exact absurd hj (Option.some_ne_none _)
  | some n =>
    have hid := (Option.some.inj hj).symm
    obtain ⟨job, hjob⟩ := Option.isSome_iff_exists.mp (hat.isJob n rfl)
    have hn : n ∈ s.mux.socketJobs := by
      rw [hat.split]
      simp
    refine ⟨n, job, rfl, hid, hjob, ?_, ?_, hn⟩
    · rw [← hid, SocketMultiplexer.content?_of_mem hsound hn, JobNode.job?_eq_some.mp hjob]
    · rw [hentries, Option.toList_some, List.singleton_append, List.filterMap_cons_some hjob]

lemma Inv.ran_fresh (h : Inv s) {i cursor j : ℕ} {done left : List JobNode} {n : JobNode}
    (hrunning : s.Running i cursor (some j) done (some n) left) : n.id ∉ s.ran := by
  intro hran
  have hnodup := h.sound.nodup
  rw [hrunning.at'.split, List.map_append, List.map_append] at hnodup
  exact List.disjoint_of_nodup_append (List.nodup_append'.mp hnodup).1 (hrunning.ran _ hran) (by simp)

lemma Inv.matched (h : Inv s) : s.Matched := by
  intro i cursor j hplace hi
  obtain ⟨done, current, left, hrunning⟩ := h.running i cursor (some j) hplace
  obtain ⟨n, job, rfl, rfl, hjob, hcontent, hentries, hn⟩ := hrunning.current_eq h.sound
  rw [List.drop_eq_getElem_cons hi, List.map_cons] at hentries
  have hsource := (List.cons.inj hentries).1
  refine ⟨s.pfds[i], job, List.getElem?_eq_getElem hi, hcontent, h.sound.mapped n hn job hjob,
    congrArg SocketJob.owner hsource, congrArg SocketJob.handle hsource, h.ran_fresh hrunning⟩

lemma Inv.runs (h : Inv s) {status : JobStatus} (ht : s.next (.runs status) = some t) : Inv t := by
  rw [next] at ht
  split at ht
  · rename_i i cursor j hplace
    split_ifs at ht
    obtain rfl := Option.some.inj ht
    obtain ⟨done, current, left, hrunning⟩ := h.running i cursor (some j) hplace
    obtain ⟨n, job, rfl, rfl, hjob, hcontent, hentries, hn⟩ := hrunning.current_eq h.sound
    obtain ⟨hsound, ⟨c, hc, hsplit⟩, hsame⟩ := SocketMultiplexer.serviced_spec h.sound hrunning.at' hjob status
    have hplain : ∀ n' ∈ (done ++ [⟨n.id, c⟩]) ++ left, n'.content ≠ .cursor := by
      obtain ⟨hdone, hleft⟩ := List.forall_mem_append.mp hrunning.at'.plain
      have hdone := (List.forall_mem_append.mp hdone).1
      exact List.forall_mem_append.mpr ⟨List.forall_mem_append.mpr ⟨hdone, List.forall_mem_singleton.mpr hc⟩, hleft⟩
    obtain ⟨hsound', hjobs'⟩ := SocketMultiplexer.nextCursor_perm hsound hsplit hplain
    have hrun : s.runJob i cursor n.id status = { s with
        mux := ((s.mux.serviced n.id job status).nextCursor cursor).2
        ran := n.id :: s.ran
        place := .running (i + 1) cursor ((s.mux.serviced n.id job status).nextCursor cursor).1 } := by
      rw [runJob, hcontent]
    have hfresh := h.ran_fresh hrunning
    rw [hrun]
    refine ⟨hsound', ?_, h.caller, fun _ => h.service (by rw [hplace]; rfl), by simp, ?_, ?_, ?_⟩
    · intro hupdate
      have hkept := hsame hupdate
      refine Eq.trans ?_ hjobs'.symm
      rw [hkept] at hupdate ⊢
      exact h.fresh hupdate
    · intro i' cursor' j' hrunning'
      obtain ⟨rfl, rfl, rfl⟩ := ServicePlace.running.inj hrunning'
      refine running_of_at (i + 1) (s := { s with mux := s.mux.serviced n.id job status, ran := n.id :: s.ran }) hsound
        hsplit hplain ?_ ?_ _
      · rw [← List.tail_drop, List.map_tail, hentries, List.tail_cons]
      · intro id hid
        rw [List.map_append]
        rcases List.mem_cons.mp hid with rfl | hid
        · exact List.mem_append_right _ List.mem_cons_self
        · exact List.mem_append_left _ (hrunning.ran id hid)
    · intro hne
      exact absurd rfl (hne _ _ _)
    · exact List.nodup_cons.mpr ⟨hfresh, h.once⟩
  · exact absurd ht.symm (Option.some_ne_none _)

lemma Inv.finishes (h : Inv s) (ht : s.next .finishes = some t) : Inv t := by
  rw [next] at ht
  split at ht
  · rename_i i cursor j hplace
    split_ifs at ht
    obtain rfl := Option.some.inj ht
    obtain ⟨done, current, left, hrunning⟩ := h.running i cursor j hplace
    obtain ⟨hlist, hsound, hjobs⟩ := SocketMultiplexer.deleteCursor_at h.sound hrunning.at'.split
    refine ⟨hsound, fun hupdate => (h.fresh hupdate).trans hjobs.symm, h.caller,
      fun _ => h.service (by rw [hplace]; rfl), by simp, by simp, fun _ => ?_, h.once⟩
    change ∀ n ∈ (s.mux.deleteCursor cursor).socketJobs, n.content ≠ .cursor
    rw [hlist]
    exact hrunning.at'.plain
  · exact absurd ht.symm (Option.some_ne_none _)

lemma Inv.sweeps (h : Inv s) (ht : s.next .sweeps = some t) : Inv t := by
  rw [next] at ht
  split_ifs at ht with hplace
  obtain rfl := Option.some.inj ht
  obtain ⟨hsound, hno, hjobs, hupdate⟩ := SocketMultiplexer.sweep_spec h.sound (h.noCursor (by rw [hplace]; simp))
  exact ⟨hsound, fun hfalse => (h.fresh (hupdate hfalse)).trans hjobs.symm, h.caller,
    fun _ => h.service (by rw [hplace]; rfl), by simp, by simp, fun _ => hno, h.once⟩

lemma Inv.next (h : Inv s) {e : ServiceStep} (ht : s.next e = some t) : Inv t := by
  cases e with
  | callerLocksOut n r => exact h.callerLocksOut ht
  | callerLocks n => exact h.callerLocks ht
  | callerActs n => exact h.callerActs ht
  | callerUnlocks n => exact h.callerUnlocks ht
  | locksOut => exact h.locksOut ht
  | locks => exact h.locks ht
  | collects => exact h.collects ht
  | polls results => exact h.polls ht
  | runs status => exact h.runs ht
  | finishes => exact h.finishes ht
  | sweeps => exact h.sweeps ht
  | unlocks => exact h.unlocks ht

lemma start_inv : Inv start where
  sound := ⟨List.nodup_nil, fun _ hn => absurd hn List.not_mem_nil, fun _ hn => absurd hn List.not_mem_nil⟩
  fresh _ := rfl
  caller n hn := by
    rcases hn with ⟨r, hlocked⟩ | hdone
    · exact CallerPlace.noConfusion hlocked
    · exact CallerPlace.noConfusion hdone
  service hinside := absurd hinside Bool.false_ne_true
  collected hplace := ServicePlace.noConfusion hplace
  running _ _ _ hplace := ServicePlace.noConfusion hplace
  noCursor _ _ hn := absurd hn List.not_mem_nil
  once := List.nodup_nil

lemma initial_inv (h : s.Initial) : Inv s := by
  obtain rfl := h
  exact start_inv

/-- Whatever the threads do and in any order, a job is run with the result of its own entry, and once. -/
theorem poll_results_matched (h : Reachable Initial Service.next (fun _ _ => True) s) : s.Matched ∧ s.ran.Nodup := by
  have hinv : Inv s := h.invariant (I := Inv) (fun _ => initial_inv) fun _ _ _ hs _ ht => hs.next ht
  exact ⟨hinv.matched, hinv.once⟩

theorem poll_results_matched_one : ∃ s, Reachable Initial Service.next (fun _ _ => True) s ∧
    s.place = .running 0 2 (some 0) ∧ s.pfds.length = 1 ∧ s.Matched ∧ s.ran.Nodup := by
  obtain ⟨s, hs, hplace, hlength⟩ : ∃ s, Reachable Initial Service.next (fun _ _ => True) s ∧
      s.place = .running 0 2 (some 0) ∧ s.pfds.length = 1 :=
    Reachable.exists_of_run rfl [.callerLocksOut 0 (.add 5 7 true false), .callerLocks 0, .callerActs 0, .callerUnlocks 0,
      .locksOut, .locks, .collects, .polls (some fun _ => ⟨true, false, false, false⟩)] (by decide)
  exact ⟨s, hs, hplace, hlength, poll_results_matched hs⟩

end Service

end InputLeap.Net
