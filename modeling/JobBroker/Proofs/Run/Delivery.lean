import JobBroker.Proofs.Run.Fate

/-! Integrity of results: what a requester gets is what it asked for, with the outcome that the
history gives the job; and a report by any other worker than the one that has the job is nothing
to anybody. -/
namespace JobBroker.System
variable {s t : System}

theorem faithful_submits (hs : s.Faithful) (hc : s.Conserved) (requester : Nat) (request : Job) :
    (s.moveTo [.submission s.directory.ids.nextJob requester request]
      (s.directory.submitted requester request)
      [.jobEnqueued .requests s.directory.ids.nextJob]).Faithful := by
  set n := s.directory.ids.nextJob with hn
  set t := s.moveTo [.submission n requester request] (s.directory.submitted requester request)
    [.jobEnqueued .requests n] with ht
  -- The number is new, so that the submission is the first one under it.
  have hnew : s.submissionsOf n = [] := by
    have hcount := hc.issued n
    rw [if_neg (Nat.lt_irrefl n), ← length_submissionsOf] at hcount
    exact List.length_eq_zero_iff.1 hcount
  have hfirst : t.submissionsOf n = [(requester, request)] := by
    rw [ht, submissionsOf_moveTo]
    simpa [submissionsOf] using hnew
  have hsub : ∀ id, s.submissionsOf id ≠ [] → t.submissionsOf id = s.submissionsOf id := by
    intro id hid
    have hne : n ≠ id := fun h => hid (h ▸ hnew)
    rw [ht, submissionsOf_moveTo]
    simp [submissionsOf, hne]
  have hfate : ∀ id, fate id t.history = fate id s.history := fun id => rfl
  have hold : ∀ stage, ∀ job ∈ s.jobsAt stage,
      t.Genuine job ∧ stage.Suits (fate job.internal t.history) job := by
    intro stage job hjob
    have hgenuine := hs.genuine stage job hjob
    refine ⟨?_, hs.suits stage job hjob⟩
    rw [Genuine, hsub _ hgenuine.submitted]
    exact hgenuine
  have hjobs : ∀ stage, ∀ job ∈ t.jobsAt stage,
      t.Genuine job ∧ stage.Suits (fate job.internal t.history) job := by
    intro stage job hjob
    cases stage with
    | pending =>
      simp only [ht, jobsAt, moveTo, Directory.tell, Directory.submitted, List.mem_append,
        List.mem_singleton] at hjob
      obtain (hjob | rfl) | hjob := hjob
      · exact hold .pending job (List.mem_append_left _ hjob)
      · exact ⟨⟨request, hfirst, rfl, rfl⟩, hs.unborn n hnew⟩
      · exact hold .pending job (List.mem_append_right _ hjob)
    | outstanding worker => exact hold (.outstanding worker) job hjob
    | finished => exact hold .finished job hjob
    | delivered r =>
      refine hold (.delivered r) job ?_
      rw [jobsAt, ← Directory.resultsFor_modifyRequester requester Requester.recordRequest
        (fun _ => rfl)]
      exact hjob
  refine ⟨fun id hid => ?_, fun id o ho => ?_, fun stage job h => (hjobs stage job h).1,
    fun stage job h => (hjobs stage job h).2⟩
  · by_cases hid' : s.submissionsOf id = []
    · exact hs.unborn id hid'
    · rw [hsub id hid'] at hid
      exact absurd hid hid'
  · simp only [ht, moveTo, Directory.tell, Directory.submitted, List.mem_cons, Prod.mk.injEq] at ho
    obtain ⟨rfl, rfl⟩ | ho := ho
    · exact ⟨request, hfirst⟩
    · obtain ⟨q, hq⟩ := hs.owners id o ho
      refine ⟨q, ?_⟩
      rw [hsub id (by rw [hq]; exact List.cons_ne_nil _ _), hq]

theorem faithful_assigns (hs : s.Faithful) (hc : s.Conserved) {job : TrackedJob} {id : Nat}
    {w : Worker} (parked : s.scheduler.parked = some job)
    (place : s.directory.workers[id]? = some w) :
    ({ s with scheduler := {} }.moveTo []
      (s.directory.withWorker id (Directory.assignedTo w (job.withWorker id)))
      [.jobEnqueued (.worker id) job.internal]).Faithful := by
  have hjob := mem_pending_of_parked parked
  have hgenuine := hs.genuine .pending job hjob
  refine hs.shift job (job.withWorker id) .pending (.outstanding id) (fun _ => rfl) (fun _ h => h)
    hgenuine hgenuine (fun _ _ => hs.only_pending hjob) ?_ ?_ ?_
  · intro k hk
    simp [Fate.next, Ne.symm hk]
  · simp [Fate.next, Stage.Suits]
  · intro stage j h
    cases stage with
    | pending =>
      have hrequest : j ∈ s.directory.requests.jobs := by simpa [jobsAt] using h
      exact .inr ⟨List.mem_append_left _ hrequest, fun _ => hc.parked_only parked j hrequest⟩
    | outstanding i =>
      obtain ⟨rfl, hmem⟩ | ⟨-, hmem⟩ := Directory.mem_outstandingWith_withWorker place h
      · obtain hold | hnew := List.mem_append.1 hmem
        · exact .inr ⟨by rwa [jobsAt, Directory.outstandingWith_eq place], by simp⟩
        · exact .inl ⟨rfl, List.mem_singleton.1 hnew⟩
      · exact .inr ⟨hmem, by simp⟩
    | finished => exact .inr ⟨h, by simp⟩
    | delivered => exact .inr ⟨h, by simp⟩

theorem faithful_starves (hs : s.Faithful) (hc : s.Conserved) {job : TrackedJob}
    (parked : s.scheduler.parked = some job) :
    ({ s with scheduler := {} }.moveTo []
      (s.directory.withCompletions (s.directory.completions.jobs ++
        [job.withOutcome false (Text.bytes noWorkerAvailable)]))
      (Directory.rejection noWorkerAvailable job)).Faithful := by
  have hjob := mem_pending_of_parked parked
  have hgenuine := hs.genuine .pending job hjob
  refine hs.shift job (job.withOutcome false (Text.bytes noWorkerAvailable)) .pending .finished
    (fun _ => rfl) (fun _ h => h) hgenuine hgenuine (fun _ _ => hs.only_pending hjob) ?_ ?_ ?_
  · intro k hk
    simp [Fate.next, Directory.rejection, Ne.symm hk]
  · exact ⟨.starved, by simp [Fate.next, Directory.rejection], rfl⟩
  · intro stage j h
    cases stage with
    | pending =>
      have hrequest : j ∈ s.directory.requests.jobs := by simpa [jobsAt] using h
      exact .inr ⟨List.mem_append_left _ hrequest, fun _ => hc.parked_only parked j hrequest⟩
    | outstanding => exact .inr ⟨h, by simp⟩
    | finished =>
      obtain hold | hnew := List.mem_append.1 h
      · exact .inr ⟨hold, by simp⟩
      · exact .inl ⟨rfl, List.mem_singleton.1 hnew⟩
    | delivered => exact .inr ⟨h, by simp⟩

theorem faithful_reports (hs : s.Faithful) (hc : s.Conserved) {id : Nat} {report : Job}
    {w : Worker} {job : TrackedJob} (place : s.directory.workers[id]? = some w)
    (found : w.outstanding.find? (fun j => j.internal == job.internal) = some job)
    (named : job.internal = report.id.toNat) :
    (s.moveTo [.report id report]
      ((s.directory.withWorker id (Directory.reportedBy w
        (job.withOutcome report.succeeded report.result))).withCompletions
          (s.directory.completions.jobs ++ [job.withOutcome report.succeeded report.result]))
      [.jobEnqueued .completions job.internal]).Faithful := by
  have hjob : job ∈ s.jobsAt (.outstanding id) := by
    rw [jobsAt, Directory.outstandingWith_eq place]
    exact List.mem_of_find?_eq_some found
  have hgenuine := hs.genuine (.outstanding id) job hjob
  have hgiven : fate job.internal s.history = .given id := hs.suits (.outstanding id) job hjob
  refine hs.shift job (job.withOutcome report.succeeded report.result) (.outstanding id) .finished
    (fun _ => rfl) (fun _ h => h) hgenuine hgenuine (fun _ _ => hs.only_outstanding hjob) ?_ ?_ ?_
  · intro k hk
    simp [Fate.next, ← named, Ne.symm hk]
  · exact ⟨.reported id report, by simp [Fate.next, ← named, hgiven], rfl⟩
  · intro stage j h
    cases stage with
    | pending => exact .inr ⟨h, by simp⟩
    | outstanding i =>
      obtain ⟨rfl, hmem⟩ | ⟨hi, hmem⟩ := Directory.mem_outstandingWith_withWorker place h
      · refine .inr ⟨?_, fun _ => hc.outstanding_only place found j hmem⟩
        rw [jobsAt, Directory.outstandingWith_eq place]
        exact List.mem_of_mem_eraseP hmem
      · exact .inr ⟨hmem, fun hstage => absurd (Stage.outstanding.inj hstage) hi⟩
    | finished =>
      obtain hold | hnew := List.mem_append.1 h
      · exact .inr ⟨hold, by simp⟩
      · exact .inl ⟨rfl, List.mem_singleton.1 hnew⟩
    | delivered => exact .inr ⟨h, by simp⟩

theorem faithful_misreports (hs : s.Faithful) {id : Nat} {report : Job}
    (unknown : ∀ w, s.directory.workers[id]? = some w → ∀ j ∈ w.outstanding,
      j.internal ≠ report.id.toNat) :
    (s.moveTo [.report id report] s.directory []).Faithful := by
  -- A job that the worker has would be outstanding with it.
  have hnot : ∀ stage, ∀ j ∈ s.jobsAt stage,
      ¬ (fate j.internal s.history = .given id ∧ report.id.toNat = j.internal) := by
    rintro stage j hj ⟨hgiven, hnamed⟩
    have hsuits := hs.suits stage j hj
    rw [hgiven] at hsuits
    rw [hsuits.eq_outstanding] at hj
    cases hw : s.directory.workers[id]? with
    | none => simp [jobsAt, Directory.outstandingWith, hw] at hj
    | some w =>
      rw [jobsAt, Directory.outstandingWith_eq hw] at hj
      exact unknown w hw j hj hnamed.symm
  refine hs.move (fun _ => rfl) (fun _ h => h) (fun k hk => ?_) fun stage j hj => ?_
  · simp [Fate.next, hs.unborn k hk]
  · have hsuits := hs.suits stage j hj
    refine ⟨hs.genuine stage j hj, ?_⟩
    simpa only [moveTo, List.map_nil, List.nil_append, List.cons_append, fate_cons, Fate.next,
      if_neg (hnot stage j hj)] using hsuits

theorem faithful_delivers (hs : s.Faithful) {job : TrackedJob} {rest : List TrackedJob}
    {o : Owner} {r : Requester} (first : s.directory.completions.jobs = job :: rest)
    (owner : s.directory.owner? job.internal = some o)
    (place : s.directory.requesters[o.requester]? = some r) :
    (s.moveTo [] (((s.directory.withCompletions rest).withoutOwners [job.internal]).withRequester
      o.requester (Directory.withResult r job))
      [.jobDelivered job.internal o.requester, .jobEnqueued (.requester o.requester) job.internal,
        .jobDequeued .completions job.internal]).Faithful := by
  have hjob : job ∈ s.jobsAt .finished := by
    rw [jobsAt, first]
    exact List.mem_cons_self ..
  have hgenuine := hs.genuine .finished job hjob
  have howner : job.requester = o.requester := by
    obtain ⟨q, hq, -⟩ := hgenuine
    obtain ⟨q', hq'⟩ := hs.owners _ o (Directory.owner?_mem owner)
    rw [hq] at hq'
    exact congrArg Prod.fst (List.singleton_inj.1 hq')
  have hold : ∀ stage, ∀ j ∈ s.jobsAt stage,
      s.Genuine j ∧ stage.Suits (fate j.internal s.history) j :=
    fun stage j hj => ⟨hs.genuine stage j hj, hs.suits stage j hj⟩
  refine hs.move (fun _ => rfl) (fun _ h => List.mem_of_mem_filter h) (fun _ _ => rfl) ?_
  intro stage j h
  cases stage with
  | pending => exact hold .pending j h
  | outstanding i => exact hold (.outstanding i) j h
  | finished =>
    refine hold .finished j ?_
    rw [jobsAt, first]
    exact List.mem_cons_of_mem _ h
  | delivered k =>
    obtain hqueue | hlater := (mem_delivered _ _ _).1 h
    · obtain ⟨rfl, hmem⟩ | ⟨-, hmem⟩ := Directory.mem_resultsFor_withRequester place hqueue
      · obtain hq | hnew := List.mem_append.1 hmem
        · refine hold (.delivered o.requester) j ((mem_delivered _ _ _).2 (.inl ?_))
          rwa [Directory.resultsFor_eq place]
        · rw [List.mem_singleton.1 hnew]
          exact ⟨hgenuine, howner, hs.suits .finished job hjob⟩
      · exact hold (.delivered k) j ((mem_delivered _ _ _).2 (.inl hmem))
    · exact hold (.delivered k) j ((mem_delivered _ _ _).2 (.inr hlater))

theorem faithful_takesResult (hs : s.Faithful) {id : Nat} {r : Requester} {job : TrackedJob}
    {rest : List TrackedJob} (place : s.directory.requesters[id]? = some r)
    (first : r.results.jobs = job :: rest) :
    ({ s with held := s.held ++ [(id, job)] }.moveTo []
      (s.directory.withRequester id { r with results := r.results.withJobs rest })
      [.jobDequeued (.requester id) job.internal]).Faithful := by
  refine hs.keep (fun _ => rfl) (fun _ h => h) (fun _ => rfl) fun stage j h => ?_
  cases stage with
  | pending | outstanding | finished => exact h
  | delivered k =>
    rw [mem_delivered] at h ⊢
    obtain hqueue | hheld | hwritten := h
    · refine .inl ?_
      obtain ⟨rfl, hmem⟩ | ⟨-, hmem⟩ := Directory.mem_resultsFor_withRequester place hqueue
      · rw [Directory.resultsFor_eq place, first]
        exact List.mem_cons_of_mem _ hmem
      · exact hmem
    · obtain hold | hnew := List.mem_append.1 hheld
      · exact .inr (.inl hold)
      · cases List.mem_singleton.1 hnew
        rw [Directory.resultsFor_eq place, first]
        exact .inl (List.mem_cons_self ..)
    · exact .inr (.inr hwritten)

theorem faithful_workerLeaves (hs : s.Faithful) {id : Nat} {w : Worker}
    (place : s.directory.workers[id]? = some w) :
    (s.moveTo []
      ((s.directory.withWorker id (Directory.departedWorker w)).withCompletions
        (s.directory.completions.jobs ++
          w.outstanding.map fun job => job.withOutcome false (Text.bytes workerDisconnected)))
      (.workerRemoved id w.outstanding.length ::
        w.outstanding.reverse.flatMap (Directory.rejection workerDisconnected) ++
          Directory.drained w.jobs)).Faithful := by
  -- The jobs that the worker had are settled, and every other job goes on as it was.
  have hfate : ∀ k, fate k ((Event.workerRemoved id w.outstanding.length ::
      w.outstanding.reverse.flatMap (Directory.rejection workerDisconnected) ++
        Directory.drained w.jobs).map Entry.event ++ [] ++ s.history) =
      if fate k s.history = .given id then .settled (.disconnected id) else fate k s.history := by
    intro k
    rw [List.append_nil, List.map_append, List.map_cons, List.cons_append, List.cons_append,
      List.append_assoc, fate_cons, fate_orphans, fate_drained]
    rfl
  have hother : ∀ stage, stage ≠ .outstanding id → ∀ j ∈ s.jobsAt stage, s.Genuine j ∧
      stage.Suits (if fate j.internal s.history = .given id then .settled (.disconnected id)
        else fate j.internal s.history) j := by
    intro stage hstage j hj
    have hsuits := hs.suits stage j hj
    refine ⟨hs.genuine stage j hj, ?_⟩
    rwa [if_neg]
    intro hgiven
    rw [hgiven] at hsuits
    exact hstage hsuits.eq_outstanding
  refine hs.move (by simp [submissionsOf]) (fun _ h => h) (fun k hk => ?_) fun stage j h => ?_
  · rw [moveTo, hfate, hs.unborn k hk]
    rfl
  rw [moveTo, hfate]
  cases stage with
  | pending => exact hother .pending (by simp) j h
  | outstanding i =>
    obtain ⟨-, hmem⟩ | ⟨hi, hmem⟩ := Directory.mem_outstandingWith_withWorker place h
    · cases hmem
    · exact hother (.outstanding i) (fun hstage => hi (Stage.outstanding.inj hstage)) j hmem
  | finished =>
    obtain hold | hnew := List.mem_append.1 h
    · exact hother .finished (by simp) j hold
    · obtain ⟨job, hmem, rfl⟩ := List.mem_map.1 hnew
      have hjob : job ∈ s.jobsAt (.outstanding id) := by
        rwa [jobsAt, Directory.outstandingWith_eq place]
      have hgiven : fate job.internal s.history = .given id := hs.suits (.outstanding id) job hjob
      refine ⟨hs.genuine (.outstanding id) job hjob, .disconnected id, ?_, rfl⟩
      rw [TrackedJob.withOutcome_internal, if_pos hgiven]
  | delivered k => exact hother (.delivered k) (by simp) j h

theorem faithful_move (h : Move s s.directory t) (hc : s.Conserved) (hs : s.Faithful) :
    t.Faithful := by
  cases h with
  | requesterJoins peer =>
    refine hs.keep (fun _ => rfl) (fun _ h => h) (fun _ => rfl) fun stage j h => ?_
    cases stage with
    | pending | outstanding | finished => exact h
    | delivered r =>
      rw [jobsAt, ← Directory.resultsFor_joinedRequester peer]
      exact h
  | workerJoins peer specialty =>
    refine hs.keep (fun _ => rfl) (fun _ h => h) (fun _ => rfl) fun stage j h => ?_
    cases stage with
    | pending | finished | delivered => exact h
    | outstanding i =>
      rw [jobsAt, ← Directory.outstandingWith_joinedWorker peer specialty]
      exact h
  | submits requester request joined => exact faithful_submits hs hc requester request
  | loads job rest idle first =>
    refine hs.keep (fun _ => rfl) (fun _ h => h) (fun _ => rfl) fun stage j h => ?_
    cases stage with
    | outstanding | finished | delivered => exact h
    | pending =>
      simp only [jobsAt, moveTo, Directory.tell, Directory.withRequests, Option.toList_some,
        List.mem_append, List.mem_singleton] at h
      rw [jobsAt, first, idle]
      simpa [or_comm] using h
  | assigns job id w parked place => exact faithful_assigns hs hc parked place
  | starves job parked => exact faithful_starves hs hc parked
  | reports id report w job place found named => exact faithful_reports hs hc place found named
  | misreports id report unknown => exact faithful_misreports hs unknown
  | delivers job rest o r first owner place => exact faithful_delivers hs first owner place
  | loses job rest o first owner =>
    refine hs.keep (fun _ => rfl) (fun _ h => List.mem_of_mem_filter h) (fun _ => rfl) ?_
    intro stage j h
    cases stage with
    | pending | outstanding | delivered => exact h
    | finished =>
      rw [jobsAt, first]
      exact List.mem_cons_of_mem _ h
  | strands job rest first owner =>
    refine hs.keep (fun _ => rfl) (fun _ h => h) (fun _ => rfl) fun stage j h => ?_
    cases stage with
    | pending | outstanding | delivered => exact h
    | finished =>
      rw [jobsAt, first]
      exact List.mem_cons_of_mem _ h
  | jobQueue id w q es place name dequeued =>
    refine hs.keep (by simp [submissionsOf]) (fun _ h => h) (fun k => ?_) fun stage j h => ?_
    · refine fate_append_of_ignored fun e he f => ?_
      rw [List.append_nil] at he
      obtain ⟨told, htold, rfl⟩ := List.mem_map.1 he
      obtain ⟨job, rfl⟩ := dequeued told htold
      rfl
    · cases stage with
      | pending | finished | delivered => exact h
      | outstanding i =>
        obtain ⟨rfl, hmem⟩ | ⟨-, hmem⟩ := Directory.mem_outstandingWith_withWorker place h
        · rwa [jobsAt, Directory.outstandingWith_eq place]
        · exact hmem
  | takesResult id r job rest place first => exact faithful_takesResult hs place first
  | closesResults id r place =>
    refine hs.keep (fun _ => rfl) (fun _ h => h) (fun _ => rfl) fun stage j h => ?_
    cases stage with
    | pending | outstanding | finished => exact h
    | delivered k =>
      rw [mem_delivered] at h ⊢
      refine h.imp_left fun hqueue => ?_
      obtain ⟨rfl, hmem⟩ | ⟨-, hmem⟩ := Directory.mem_resultsFor_withRequester place hqueue
      · rw [JobQueue.close_jobs] at hmem
        rwa [Directory.resultsFor_eq place]
      · exact hmem
  | writes id h first =>
    refine hs.keep (fun _ => rfl) (fun _ h => h) (fun _ => rfl) fun stage j hj => ?_
    cases stage with
    | pending | outstanding | finished => exact hj
    | delivered k =>
      rw [mem_delivered] at hj ⊢
      obtain hqueue | hheld | hwritten := hj
      · rw [← Directory.resultsFor_modifyRequester id Requester.recordDelivery (fun _ => rfl)]
        exact .inl hqueue
      · exact .inr (.inl (List.mem_of_mem_eraseP hheld))
      · obtain hnew | hold := List.mem_cons.1 hwritten
        · rw [hnew]
          exact .inr (.inl (List.mem_of_find?_eq_some first))
        · exact .inr (.inr hold)
  | workerLeaves id w place connected => exact faithful_workerLeaves hs place
  | requesterLeaves id r place connected =>
    refine hs.keep (by simp [submissionsOf]) (fun _ h => List.mem_of_mem_filter h) (fun k => ?_) ?_
    · simp only [moveTo, List.append_nil, List.cons_append, List.map_cons, List.map_append,
        List.append_assoc, fate_cons, fate_undelivered, fate_drained]
      rfl
    intro stage j h
    cases stage with
    | pending | outstanding | finished => exact h
    | delivered k =>
      rw [mem_delivered] at h ⊢
      obtain hqueue | hheld | hwritten := h
      · obtain ⟨-, hmem⟩ | ⟨-, hmem⟩ := Directory.mem_resultsFor_withRequester place hqueue
        · cases hmem
        · exact .inl hmem
      · exact .inr (.inl (List.mem_of_mem_filter hheld))
      · exact .inr (.inr hwritten)
  | waits span => exact hs.keep (fun _ => rfl) (fun _ h => h) (fun _ => rfl) fun _ _ h => h

theorem run_faithful (build : Build) (scheduling : Scheduling) (now : Millis)
    (steps : List Step) :
    ((start build scheduling now).run steps).Conserved ∧
      ((start build scheduling now).run steps).Faithful := by
  refine run_invariant (motive := fun s => s.Conserved ∧ s.Faithful) build scheduling now steps ?_
    fun s t _ _ h hs => ⟨conserved_move h hs.1, faithful_move h hs.1 hs.2⟩
  have hnone : ∀ stage, (start build scheduling now).jobsAt stage = [] := by
    intro stage
    cases stage <;> rfl
  refine ⟨run_conserved build scheduling now [], fun _ _ => rfl,
    fun _ _ h => (List.not_mem_nil h).elim, fun stage job h => ?_, fun stage job h => ?_⟩
  · rw [hnone] at h
    exact (List.not_mem_nil h).elim
  · rw [hnone] at h
    exact (List.not_mem_nil h).elim

/-- A broker without its history. -/
def forget (s : System) : System := { s with history := [] }

theorem step_forget (s : System) (x : Step) : (s.step x).forget = (s.forget.step x).forget := by
  cases x with
  | routes =>
    simp only [step, forget]
    cases s.directory.routeNext <;> rfl
  | schedules =>
    simp only [step, forget]
    cases s.scheduler.step s.directory <;> rfl
  | submits requester request =>
    by_cases hjoined : requester < s.directory.requesters.length
    · cases hsubmit : s.directory.submit requester request with
      | mk d result => cases result <;> simp [step, submit, forget, goOn, hjoined, hsubmit]
    · simp [step, submit, forget, hjoined]
  | takes peer =>
    simp only [step, take, forget]
    cases s.directory.takeFor peer with
    | none => rfl
    | some taken => cases peer <;> rfl
  | writes requester =>
    simp only [step, write, forget]
    cases s.held.find? fun h => h.1 == requester <;> rfl
  | leaves peer =>
    by_cases hconnected : s.directory.isConnected peer
    · cases peer <;> simp [step, leave, forget, goOn, heldBy, heldWithout, hconnected]
    · simp [step, leave, forget, hconnected]
  | _ => rfl

theorem run_forget (s : System) (steps : List Step) :
    (s.run steps).forget = (s.forget.run steps).forget := by
  induction steps generalizing s with
  | nil => rfl
  | cons x steps ih =>
    calc ((s.step x).run steps).forget
        = ((s.step x).forget.run steps).forget := ih _
      _ = ((s.forget.step x).forget.run steps).forget := by rw [step_forget]
      _ = ((s.forget.step x).run steps).forget := (ih _).symm

theorem step_reports_forget (hd : s.directory.Wired) (ha : s.directory.Attended)
    (hs : s.Faithful) {worker : Nat} {report : Job}
    (hother : fate report.id.toNat s.history ≠ .given worker) :
    (s.step (.reports worker report)).forget = s.forget := by
  obtain ⟨hreport, -⟩ | ⟨w, job, hw, hfound, hid, -⟩ :=
    Directory.complete_cases hd ha worker report
  · simp only [step, hreport]
    rfl
  · have hjob : job ∈ s.jobsAt (.outstanding worker) := by
      rw [jobsAt, Directory.outstandingWith_eq hw]
      exact List.mem_of_find?_eq_some hfound
    rw [← hid] at hother
    exact absurd (hs.suits (.outstanding worker) job hjob) hother

/-- In every run, what was delivered to a requester was submitted once, by that requester, with the
number and the type that the delivery bears, and its outcome is the one that the history gives it.
A report by any worker but the one that has the job leaves no trace in whatever follows. -/
theorem deliveries_are_genuine (build : Build) (scheduling : Scheduling) (now : Millis)
    (steps : List Step) :
    let s := (start build scheduling now).run steps
    (∀ requester, ∀ job ∈ s.jobsAt (.delivered requester),
      (∃ request, s.submissionsOf job.internal = [(requester, request)] ∧
        job.deliveryJob.id = request.id ∧ job.deliveryJob.jobType = request.jobType) ∧
      ∃ how, fate job.internal s.history = .settled how ∧
        (job.deliveryJob.succeeded, job.deliveryJob.result) = how.outcome) ∧
    ∀ worker report later, fate report.id.toNat s.history ≠ .given worker →
      ((s.step (.reports worker report)).run later).forget = (s.run later).forget := by
  intro s
  have hs : s.Faithful := (run_faithful build scheduling now steps).2
  obtain ⟨hd, ha⟩ := run_sound build scheduling now steps
  refine ⟨fun requester job hjob => ?_, fun worker report later hother => ?_⟩
  · obtain ⟨request, hsub, hnumber, htype⟩ := hs.genuine _ job hjob
    obtain ⟨howner, how, hfate, houtcome⟩ := hs.suits _ job hjob
    rw [howner] at hsub
    exact ⟨⟨request, hsub, hnumber, htype⟩, how, hfate, houtcome⟩
  · rw [run_forget, step_reports_forget hd ha hs hother, ← run_forget]

example :
    let s := (start .checked {} 0).run [.requesterJoins "", .requesterJoins "", .workerJoins "" .a,
      .submits 0 ⟨7, .a, false, []⟩, .submits 1 ⟨7, .b, false, []⟩, .schedules, .schedules,
      .reports 0 ⟨1, .b, true, [1]⟩, .reports 0 ⟨0, .a, true, [0]⟩, .routes, .routes]
    [0, 1].map (fun r => (s.jobsAt (.delivered r)).map (·.deliveryJob)) =
      [[⟨7, .a, true, [0]⟩], [⟨7, .b, true, [1]⟩]] := by decide +kernel

end JobBroker.System
