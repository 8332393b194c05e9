import JobBroker.Proofs.Placement.Figures
import JobBroker.Proofs.Placement.Selection
import JobBroker.Proofs.Run.Basic
import Mathlib.Data.List.Basic

/-! What the operations of a directory do while both of its own queues have their consumers: each
operation as one change of the record. -/
namespace JobBroker

namespace TrackedJob

@[simp] theorem withWorker_internal (j : TrackedJob) (worker : Nat) :
    (j.withWorker worker).internal = j.internal := rfl

@[simp] theorem withOutcome_internal (j : TrackedJob) (succeeded : Bool) (result : Bytes) :
    (j.withOutcome succeeded result).internal = j.internal := rfl

@[simp] theorem ofRequest_internal (internal requester : Nat) (request : Job) (now : Millis) :
    (ofRequest internal requester request now).internal = internal := rfl

end TrackedJob

namespace JobQueue

theorem enqueue_taking (q : JobQueue) (job : TrackedJob) (h : q.consumer = .taking) :
    q.enqueue job =
      .ok ({ q with jobs := q.jobs ++ [job] }, .jobEnqueued q.name job.internal) := by
  simp [enqueue, isClosed, h]

theorem enqueue_ok {q q' : JobQueue} {job : TrackedJob} {e : Event}
    (h : q.enqueue job = .ok (q', e)) :
    q' = { q with jobs := q.jobs ++ [job] } ∧ e = .jobEnqueued q.name job.internal := by
  unfold enqueue at h
  split at h
  · cases h
  · cases h
    exact ⟨rfl, rfl⟩

@[simp] theorem close_jobs (q : JobQueue) : q.close.jobs = q.jobs := by
  unfold close; split <;> rfl

@[simp] theorem close_name (q : JobQueue) : q.close.name = q.name := by
  unfold close; split <;> rfl

theorem isClosed_close (q : JobQueue) : q.close.isClosed = true := by
  unfold close isClosed
  split
  · rfl
  · simpa using ‹_›

def withJobs (q : JobQueue) (jobs : List TrackedJob) : JobQueue := { q with jobs := jobs }

@[simp] theorem withJobs_jobs (q : JobQueue) (jobs : List TrackedJob) :
    (q.withJobs jobs).jobs = jobs := rfl

/-- A queue that was drained and given up. -/
def spent (q : JobQueue) : JobQueue := { q with jobs := [], consumer := .dropped }

theorem drop_drain (q : JobQueue) : q.drain.2.1.drop = q.spent := by
  unfold drain close
  split <;> rfl

end JobQueue

namespace Directory

/-- Peers stand at the places of their numbers, the counters count them, and queues have their
names. Operations find a peer by its number and write it back there, so this is what makes a lookup
after a write predictable. -/
structure Wired (d : Directory) : Prop where
  worker : ∀ (i : Nat) (w : Worker), d.workers[i]? = some w → w.id = i ∧ w.jobs.name = .worker i
  requester : ∀ (i : Nat) (r : Requester), d.requesters[i]? = some r →
    r.id = i ∧ r.results.name = .requester i
  nextWorker : d.ids.nextWorker = d.workers.length
  nextRequester : d.ids.nextRequester = d.requesters.length
  requests : d.requests.name = .requests
  completions : d.completions.name = .completions

/-- A worker that takes jobs has more to do than can be reckoned. -/
def Overloaded (d : Directory) : Prop :=
  d.build = .checked ∧
    ∃ w ∈ d.connectedWorkers, w.isAccepting = true ∧ Decimal.maxWord < w.exactLoad

/-- Both of the directory's own queues have their consumers. -/
structure Attended (d : Directory) : Prop where
  requests : d.requests.consumer = .taking
  completions : d.completions.consumer = .taking

@[simp] def withRequests (d : Directory) (jobs : List TrackedJob) : Directory :=
  { d with requests := { d.requests with jobs := jobs } }

@[simp] def withCompletions (d : Directory) (jobs : List TrackedJob) : Directory :=
  { d with completions := { d.completions with jobs := jobs } }

@[simp] def withWorker (d : Directory) (id : Nat) (w : Worker) : Directory :=
  { d with workers := d.workers.set id w }

@[simp] def withRequester (d : Directory) (id : Nat) (r : Requester) : Directory :=
  { d with requesters := d.requesters.set id r }

@[simp] def withoutOwners (d : Directory) (ids : List Nat) : Directory :=
  { d with owners := d.owners.filter fun o => o.1 ∉ ids }

@[simp] def tell (d : Directory) (es : List Event) : Directory := { d with log := es ++ d.log }

def joinedRequester (d : Directory) (peer : String) : Directory :=
  { d with
    ids := { d.ids with nextRequester := d.ids.nextRequester + 1 }
    requesters := d.requesters ++
      [{ id := d.ids.nextRequester, peer := peer, connectedAt := d.now,
         results := { name := .requester d.ids.nextRequester } }] }

def joinedWorker (d : Directory) (peer : String) (specialty : JobType) : Directory :=
  { d with
    ids := { d.ids with nextWorker := d.ids.nextWorker + 1 }
    workers := d.workers ++
      [{ id := d.ids.nextWorker, peer := peer, specialty := specialty,
         scheduling := d.scheduling, connectedAt := d.now,
         jobs := { name := .worker d.ids.nextWorker } }] }

def submitted (d : Directory) (requester : Nat) (request : Job) : Directory :=
  { d with
    ids := { d.ids with nextJob := d.ids.nextJob + 1 }
    requests := { d.requests with
      jobs := d.requests.jobs ++ [.ofRequest d.ids.nextJob requester request d.now] }
    owners := (d.ids.nextJob, ⟨requester, request.id, request.jobType⟩) :: d.owners
    requesters := d.requesters.modify requester Requester.recordRequest }

def assignedTo (w : Worker) (job : TrackedJob) : Worker :=
  { w with
    jobs := { w.jobs with jobs := w.jobs.jobs ++ [job] }
    outstanding := w.outstanding ++ [job] }

def reportedBy (w : Worker) (done : TrackedJob) : Worker :=
  { w with
    outstanding := w.outstanding.eraseP fun j => j.internal == done.internal
    completed := Worker.remember w.completed done
    completedTotal := w.completedTotal + 1 }

def withResult (r : Requester) (job : TrackedJob) : Requester :=
  { r with results := { r.results with jobs := r.results.jobs ++ [job] } }

def departedWorker (w : Worker) : Worker :=
  { w with
    jobs := w.jobs.spent
    outstanding := []
    connected := false }

def departedRequester (r : Requester) : Requester :=
  { r with
    results := r.results.spent
    connected := false }

@[simp] theorem assignedTo_outstanding (w : Worker) (job : TrackedJob) :
    (assignedTo w job).outstanding = w.outstanding ++ [job] := rfl

@[simp] theorem reportedBy_outstanding (w : Worker) (done : TrackedJob) :
    (reportedBy w done).outstanding =
      w.outstanding.eraseP fun j => j.internal == done.internal := rfl

@[simp] theorem departedWorker_outstanding (w : Worker) : (departedWorker w).outstanding = [] := rfl

@[simp] theorem withResult_jobs (r : Requester) (job : TrackedJob) :
    (withResult r job).results.jobs = r.results.jobs ++ [job] := rfl

@[simp] theorem departedRequester_jobs (r : Requester) :
    (departedRequester r).results.jobs = [] := rfl

/-! What the log tells of a rejection, of a queue that is drained, and of results that nobody takes:
like the log itself, each is latest first. -/

def rejection (reason : String) (job : TrackedJob) : List Event :=
  [.jobEnqueued .completions job.internal, .jobRejected job.internal reason]

def drained (q : JobQueue) : List Event :=
  (q.jobs.map fun job => .jobDequeued q.name job.internal).reverse

def undelivered (id : Nat) (jobs : List TrackedJob) : List Event :=
  (jobs.map fun job => .jobUndeliverable job.internal id).reverse

section Wiring
variable {d : Directory}

theorem Attended.tell (h : d.Attended) (es : List Event) : (d.tell es).Attended :=
  ⟨h.requests, h.completions⟩

theorem Attended.withCompletions (h : d.Attended) (jobs : List TrackedJob) :
    (d.withCompletions jobs).Attended := ⟨h.requests, h.completions⟩

theorem Attended.withWorker (h : d.Attended) (id : Nat) (w : Worker) :
    (d.withWorker id w).Attended := ⟨h.requests, h.completions⟩

theorem Wired.tell (h : d.Wired) (es : List Event) : (d.tell es).Wired :=
  ⟨h.worker, h.requester, h.nextWorker, h.nextRequester, h.requests, h.completions⟩

theorem Wired.withCompletions (h : d.Wired) (jobs : List TrackedJob) :
    (d.withCompletions jobs).Wired :=
  ⟨h.worker, h.requester, h.nextWorker, h.nextRequester, h.requests, h.completions⟩

theorem Wired.withRequests (h : d.Wired) (jobs : List TrackedJob) : (d.withRequests jobs).Wired :=
  ⟨h.worker, h.requester, h.nextWorker, h.nextRequester, h.requests, h.completions⟩

theorem Wired.withoutOwners (h : d.Wired) (ids : List Nat) : (d.withoutOwners ids).Wired :=
  ⟨h.worker, h.requester, h.nextWorker, h.nextRequester, h.requests, h.completions⟩

theorem Wired.withWorker (h : d.Wired) {id : Nat} {w w' : Worker} (hw : d.workers[id]? = some w)
    (hid : w'.id = w.id) (hname : w'.jobs.name = w.jobs.name) : (d.withWorker id w').Wired := by
  refine ⟨?_, h.requester, by simp [h.nextWorker], h.nextRequester, h.requests, h.completions⟩
  intro i v hv
  rw [Directory.withWorker, List.getElem?_set] at hv
  split at hv
  · subst i
    split at hv
    · cases hv
      rw [hid, hname]
      exact h.worker id w hw
    · cases hv
  · exact h.worker i v hv

theorem Wired.withRequester (h : d.Wired) {id : Nat} {r r' : Requester}
    (hr : d.requesters[id]? = some r) (hid : r'.id = r.id)
    (hname : r'.results.name = r.results.name) : (d.withRequester id r').Wired := by
  refine ⟨h.worker, ?_, h.nextWorker, by simp [h.nextRequester], h.requests, h.completions⟩
  intro i v hv
  rw [Directory.withRequester, List.getElem?_set] at hv
  split at hv
  · subst i
    split at hv
    · cases hv
      rw [hid, hname]
      exact h.requester id r hr
    · cases hv
  · exact h.requester i v hv

theorem Wired.modifyRequester (h : d.Wired) (id : Nat) (f : Requester → Requester)
    (hid : ∀ r, (f r).id = r.id) (hname : ∀ r, (f r).results = r.results) :
    (d.modifyRequester id f).Wired := by
  refine ⟨h.worker, ?_, h.nextWorker, by simp [Directory.modifyRequester, h.nextRequester],
    h.requests, h.completions⟩
  intro i v hv
  rw [Directory.modifyRequester, List.getElem?_modify] at hv
  obtain ⟨r, hr, rfl⟩ := Option.map_eq_some_iff.1 hv
  have hi := h.requester i r hr
  split
  · rw [hid, hname]
    exact hi
  · exact hi

theorem getElem?_concat_some {α : Type} {l : List α} {a b : α} {i : Nat}
    (h : (l ++ [a])[i]? = some b) : l[i]? = some b ∨ (i = l.length ∧ b = a) := by
  rw [List.getElem?_append] at h
  split at h
  · exact .inl h
  · rename_i hlen
    rw [List.getElem?_singleton] at h
    split at h
    · exact .inr ⟨by omega, by cases h; rfl⟩
    · cases h

theorem Wired.joinedRequester (h : d.Wired) (peer : String) : (d.joinedRequester peer).Wired := by
  refine ⟨h.worker, ?_, h.nextWorker, by simp [Directory.joinedRequester, h.nextRequester],
    h.requests, h.completions⟩
  intro i r hr
  obtain hr | ⟨rfl, rfl⟩ := getElem?_concat_some hr
  · exact h.requester i r hr
  · exact ⟨h.nextRequester, congrArg QueueName.requester h.nextRequester⟩

theorem Wired.joinedWorker (h : d.Wired) (peer : String) (specialty : JobType) :
    (d.joinedWorker peer specialty).Wired := by
  refine ⟨?_, h.requester, by simp [Directory.joinedWorker, h.nextWorker], h.nextRequester,
    h.requests, h.completions⟩
  intro i w hw
  obtain hw | ⟨rfl, rfl⟩ := getElem?_concat_some hw
  · exact h.worker i w hw
  · exact ⟨h.nextWorker, congrArg QueueName.worker h.nextWorker⟩

theorem Wired.submitted (h : d.Wired) (requester : Nat) (request : Job) :
    (d.submitted requester request).Wired := by
  have hr := h.modifyRequester requester Requester.recordRequest (fun _ => rfl) (fun _ => rfl)
  exact ⟨hr.worker, hr.requester, hr.nextWorker, hr.nextRequester, hr.requests, hr.completions⟩

end Wiring

theorem emitAll_eq (d : Directory) (es : List Event) :
    d.emitAll es = { d with log := es.reverse ++ d.log } := by
  induction es generalizing d with
  | nil => rfl
  | cons e es ih =>
    have h : d.emitAll (e :: es) = (d.emit e).emitAll es := rfl
    rw [h, ih]
    simp [emit]

theorem worker?_some {d : Directory} {id : Nat} {w : Worker} (h : d.worker? id = some w) :
    d.workers[id]? = some w ∧ w.connected = true := by
  simpa [worker?, Option.filter_eq_some_iff] using h

theorem requester?_some {d : Directory} {id : Nat} {r : Requester}
    (h : d.requester? id = some r) : d.requesters[id]? = some r ∧ r.connected = true := by
  simpa [requester?, Option.filter_eq_some_iff] using h

theorem owner?_eq_none_iff (d : Directory) (id : Nat) :
    d.owner? id = none ↔ (d.owners.map (·.1)).count id = 0 := by
  simp only [owner?, Option.map_eq_none_iff, List.find?_eq_none, List.count_eq_zero,
    List.mem_map, not_exists, not_and, beq_iff_eq]

theorem owner?_mem {d : Directory} {id : Nat} {o : Owner} (h : d.owner? id = some o) :
    (id, o) ∈ d.owners := by
  unfold owner? at h
  obtain ⟨entry, hfind, ho⟩ := Option.map_eq_some_iff.1 h
  have hid := List.find?_some hfind
  have hmem := List.mem_of_find?_eq_some hfind
  obtain ⟨id', o'⟩ := entry
  simp only [beq_iff_eq] at hid ho
  rw [hid, ho] at hmem
  exact hmem

theorem count_withoutOwners (d : Directory) (ids : List Nat) (id : Nat) :
    ((d.withoutOwners ids).owners.map (·.1)).count id =
      if id ∈ ids then 0 else (d.owners.map (·.1)).count id := by
  simp only [withoutOwners, List.count_eq_countP, List.countP_map, List.countP_filter]
  split
  · rename_i h
    refine List.countP_eq_zero.2 fun o _ => ?_
    by_cases ho : o.1 = id <;> simp [ho, h]
  · rename_i h
    refine List.countP_congr fun o _ => ?_
    by_cases ho : o.1 = id <;> simp [ho, h]

theorem reject_eq {d : Directory} (hd : d.Wired) (ha : d.Attended) (job : TrackedJob)
    (reason : String) :
    d.reject job reason =
      (d.withCompletions (d.completions.jobs ++
        [job.withOutcome false (Text.bytes reason)])).tell (rejection reason job) := by
  simp [reject, emit, JobQueue.enqueue_taking _ _ ha.completions, hd.completions, rejection,
    TrackedJob.withOutcome]

theorem foldl_reject_eq {d : Directory} (hd : d.Wired) (ha : d.Attended) (jobs : List TrackedJob)
    (reason : String) :
    jobs.foldl (fun d job => d.reject job reason) d =
      (d.withCompletions (d.completions.jobs ++
        jobs.map fun job => job.withOutcome false (Text.bytes reason))).tell
          (jobs.reverse.flatMap (rejection reason)) := by
  induction jobs generalizing d with
  | nil => simp
  | cons job jobs ih =>
    rw [List.foldl_cons, reject_eq hd ha,
      ih ((hd.withCompletions _).tell _) ((ha.withCompletions _).tell _)]
    simp [rejection]

theorem foldl_markUndeliverable_eq (d : Directory) (jobs : List TrackedJob) (id : Nat) :
    jobs.foldl (fun d job => d.markUndeliverable job id) d =
      (d.withoutOwners (jobs.map (·.internal))).tell (undelivered id jobs) := by
  induction jobs generalizing d with
  | nil => simp [undelivered]
  | cons job jobs ih =>
    rw [List.foldl_cons, ih]
    simp only [markUndeliverable, eraseOwner, emit, withoutOwners, tell, undelivered,
      List.filter_filter, List.map_cons, List.reverse_cons, List.append_assoc, List.cons_append,
      List.nil_append, List.mem_cons, not_or]
    congr 2
    funext o
    by_cases h : o.1 = job.internal <;> simp [h]

theorem submit_eq {d : Directory} (hd : d.Wired) (ha : d.Attended) (requester : Nat)
    (request : Job) :
    d.submit requester request =
      ((d.submitted requester request).tell [.jobEnqueued .requests d.ids.nextJob],
        .ok d.ids.nextJob) := by
  simp [submit, submitted, Ids.drawJob, JobQueue.enqueue_taking _ _ ha.requests, hd.requests, emit,
    modifyRequester, TrackedJob.ofRequest]

theorem mem_connectedWorkers {d : Directory} {w : Worker} :
    w ∈ d.connectedWorkers ↔ ∃ id : Nat, d.workers[id]? = some w ∧ w.connected = true := by
  rw [connectedWorkers, List.mem_filter, List.mem_iff_getElem?, exists_and_right]

theorem assign_accepting {w : Worker} (h : w.isAccepting = true) (job : TrackedJob) :
    w.assign job = .ok (assignedTo w job, .jobEnqueued w.jobs.name job.internal) := by
  have hopen : w.jobs.isClosed = false := by rwa [Worker.isAccepting, Bool.not_eq_true'] at h
  rw [Worker.assign, JobQueue.enqueue, hopen]
  rfl

theorem mem_accepting {workers : List Worker} {w : Worker} :
    w ∈ accepting workers ↔ w ∈ workers ∧ w.isAccepting = true := List.mem_filter

theorem overloaded_iff {d : Directory} :
    d.Overloaded ↔ ¬ ∀ w ∈ accepting d.connectedWorkers, d.build.Bears w.exactLoad := by
  simp only [Overloaded, not_forall, Build.not_bears_iff, mem_accepting, exists_prop]
  constructor
  · rintro ⟨hchecked, w, hmem, haccepting, hover⟩
    exact ⟨w, ⟨hmem, haccepting⟩, hchecked, hover⟩
  · rintro ⟨w, ⟨hmem, haccepting⟩, hchecked, hover⟩
    exact ⟨hchecked, w, hmem, haccepting, hover⟩

theorem not_overloaded_of_nobody {d : Directory}
    (hnobody : ∀ w ∈ d.connectedWorkers, w.isAccepting = false) : ¬ d.Overloaded := by
  rintro ⟨-, w, hw, haccepting, -⟩
  rw [hnobody w hw] at haccepting
  cases haccepting

theorem Wired.eq_of_id {d : Directory} (hd : d.Wired) {v w : Worker} {id : Nat}
    (hv : v ∈ d.connectedWorkers) (hid : v.id = id) (hw : d.workers[id]? = some w) : v = w := by
  obtain ⟨place, hplace, -⟩ := mem_connectedWorkers.1 hv
  rw [← (hd.worker place v hplace).1, hid, hw] at hplace
  exact (Option.some.inj hplace).symm

theorem find?_accepting {d : Directory} (hd : d.Wired) {id : Nat} {w : Worker}
    (hw : d.workers[id]? = some w) (hconnected : w.connected = true)
    (haccepting : w.isAccepting = true) :
    (accepting d.connectedWorkers).find? (fun w => w.id == id) = some w := by
  have hmem : w ∈ accepting d.connectedWorkers :=
    mem_accepting.2 ⟨mem_connectedWorkers.2 ⟨id, hw, hconnected⟩, haccepting⟩
  have hid := (hd.worker id w hw).1
  cases hfind : (accepting d.connectedWorkers).find? (fun w => w.id == id) with
  | none => exact absurd (List.find?_eq_none.1 hfind w hmem) (by simp [hid])
  | some v =>
    have hv := List.find?_some hfind
    rw [beq_iff_eq] at hv
    have hfound := (mem_accepting.1 (List.mem_of_find?_eq_some hfind)).1
    rw [hd.eq_of_id hfound hv hw]

/-- What becomes of a job that is to be placed. -/
inductive Placed (d : Directory) (job : TrackedJob) : Prop
  | panics (overloaded : d.Overloaded) (result : d.tryAssign job = .error .addOverflow)
  | returns (nobody : ∀ w ∈ d.connectedWorkers, w.isAccepting = false)
      (result : d.tryAssign job = .ok (d, .error job))
  | assigns (fits : ¬ d.Overloaded) (id : Nat) (w : Worker) (place : d.workers[id]? = some w)
      (connected : w.connected = true) (accepts : w.isAccepting = true)
      (chosen : selectWorker (d.figures job) = some id)
      (result : d.tryAssign job =
        .ok ((d.withWorker id (assignedTo w (job.withWorker id))).tell
          [.jobEnqueued (.worker id) job.internal], .ok id))

theorem placed {d : Directory} (hd : d.Wired) (job : TrackedJob) : d.Placed job := by
  by_cases hover : d.Overloaded
  · refine .panics hover ?_
    rw [tryAssign, attempt, candidates_error (overloaded_iff.1 hover)]
  have hfigures : d.candidates (accepting d.connectedWorkers) job = .ok (d.figures job) :=
    candidates_ok (Classical.not_not.1 (mt overloaded_iff.2 hover)) job
  cases hchosen : selectWorker (d.figures job) with
  | none =>
    have hnobody := hchosen
    rw [selectWorker_eq_none_iff, figures, List.map_eq_nil_iff, accepting, List.filter_eq_nil_iff]
      at hnobody
    refine .returns (fun w hw => Bool.eq_false_iff.2 (hnobody w hw)) ?_
    rw [tryAssign, attempt, hfigures]
    simp only [hchosen]
  | some id =>
    obtain ⟨c, hc, hid⟩ := mem_of_selectWorker hchosen
    obtain ⟨w, hw, rfl⟩ := List.mem_map.1 hc
    obtain ⟨hmem, haccepting⟩ := mem_accepting.1 hw
    obtain ⟨place, hget, hconnected⟩ := mem_connectedWorkers.1 hmem
    obtain ⟨hplace, hname⟩ := hd.worker place w hget
    obtain rfl : place = id := hplace.symm.trans hid
    have hfound := find?_accepting hd hget hconnected haccepting
    refine .assigns hover place w hget hconnected haccepting hchosen ?_
    rw [tryAssign, attempt, hfigures]
    simp only [hchosen]
    split
    · rename_i hnone
      rw [hfound] at hnone
      cases hnone
    · rename_i v hsome
      rw [hfound] at hsome
      cases hsome
      simp only [assign_accepting haccepting, hname]
      simp [setWorker, emit, hplace, assignedTo]

theorem isOverdue_iff (d : Directory) (job : TrackedJob) :
    d.isOverdue job = true ↔ d.scheduling.starvationMillis ≠ 0 ∧
      job.submittedAt + d.scheduling.starvationMillis.toNat ≤ d.now := by
  unfold isOverdue Scheduling.starvation?
  by_cases hzero : d.scheduling.starvationMillis = 0 <;> simp [hzero]

theorem place_cases {d : Directory} (hd : d.Wired) (ha : d.Attended) (job : TrackedJob) :
    (d.Overloaded ∧ Scheduler.place d job = .error .addOverflow) ∨
    (∃ id w, d.workers[id]? = some w ∧ w.connected = true ∧ w.isAccepting = true ∧
      Scheduler.place d job =
        .ok ({}, (d.withWorker id (assignedTo w (job.withWorker id))).tell
          [.jobEnqueued (.worker id) job.internal])) ∨
    (∀ w ∈ d.connectedWorkers, w.isAccepting = false) ∧
      ((d.isOverdue job = true ∧ Scheduler.place d job =
        .ok ({}, (d.withCompletions (d.completions.jobs ++
          [job.withOutcome false (Text.bytes noWorkerAvailable)])).tell
            (rejection noWorkerAvailable job))) ∨
      (d.isOverdue job = false ∧ Scheduler.place d job = .ok ({ parked := some job }, d))) := by
  cases placed hd job with
  | panics overloaded result => exact .inl ⟨overloaded, by rw [Scheduler.place, result]⟩
  | assigns fits id w place connected accepts chosen result =>
    exact .inr (.inl ⟨id, w, place, connected, accepts, by simp [Scheduler.place, result]⟩)
  | returns nobody result =>
    refine .inr (.inr ⟨nobody, ?_⟩)
    cases hdue : d.isOverdue job with
    | true => exact .inl ⟨rfl, by simp [Scheduler.place, result, hdue, reject_eq hd ha]⟩
    | false => exact .inr ⟨rfl, by simp [Scheduler.place, result, hdue]⟩

theorem place_fails_iff {d : Directory} (hd : d.Wired) (job : TrackedJob) :
    Scheduler.place d job = .error .addOverflow ↔ d.Overloaded := by
  cases placed hd job with
  | panics overloaded result =>
    exact iff_of_true (by rw [Scheduler.place, result]) overloaded
  | returns nobody result =>
    refine iff_of_false ?_ (not_overloaded_of_nobody nobody)
    rw [Scheduler.place, result]
    dsimp only
    split <;> nofun
  | assigns fits id w place connected accepts chosen result =>
    exact iff_of_false (by rw [Scheduler.place, result]; nofun) fits

theorem complete_cases {d : Directory} (hd : d.Wired) (ha : d.Attended) (worker : Nat)
    (report : Job) :
    (d.complete worker report = (d, .error (.unknownJob worker report.id)) ∧
      ∀ w, d.workers[worker]? = some w → ∀ j ∈ w.outstanding, j.internal ≠ report.id.toNat) ∨
    ∃ w job, d.workers[worker]? = some w ∧
      w.outstanding.find? (fun j => j.internal == job.internal) = some job ∧
      job.internal = report.id.toNat ∧
      d.complete worker report =
        (((d.withWorker worker
          (reportedBy w (job.withOutcome report.succeeded report.result))).withCompletions
            (d.completions.jobs ++ [job.withOutcome report.succeeded report.result])).tell
              [.jobEnqueued .completions job.internal],
          .ok (job.withOutcome report.succeeded report.result)) := by
  cases hw : d.workers[worker]? with
  | none => exact .inl ⟨by simp [complete, hw], by simp⟩
  | some w =>
    cases hfind : w.outstanding.find? fun j => j.internal == report.id.toNat with
    | none =>
      refine .inl ⟨by simp [complete, hw, Worker.complete, hfind], ?_⟩
      intro w' hw' j hj
      cases hw'
      simpa using List.find?_eq_none.1 hfind j hj
    | some job =>
      have hid : job.internal = report.id.toNat := by simpa using List.find?_some hfind
      have hplace : w.id = worker := (hd.worker worker w hw).1
      refine .inr ⟨w, job, rfl, by rw [hid]; exact hfind, hid, ?_⟩
      simp [complete, hw, Worker.complete, hfind, setWorker, emit, hplace, hid, reportedBy,
        JobQueue.enqueue_taking _ _ ha.completions, hd.completions, TrackedJob.withOutcome]

theorem route_cases {d : Directory} (hd : d.Wired) (job : TrackedJob) :
    (d.owner? job.internal = none ∧ d.route job = (.unknown, d)) ∨
    (∃ o, d.owner? job.internal = some o ∧ d.route job = (.undeliverable o.requester,
      (d.withoutOwners [job.internal]).tell [.jobUndeliverable job.internal o.requester])) ∨
    ∃ o r, d.owner? job.internal = some o ∧ d.requesters[o.requester]? = some r ∧
      r.connected = true ∧ d.route job = (.delivered o.requester,
        ((d.withoutOwners [job.internal]).withRequester o.requester (withResult r job)).tell
          [.jobDelivered job.internal o.requester,
            .jobEnqueued (.requester o.requester) job.internal]) := by
  have herase : d.eraseOwner job.internal = d.withoutOwners [job.internal] := by
    simp only [eraseOwner, withoutOwners, List.mem_singleton, decide_not]
    rfl
  cases howner : d.owner? job.internal with
  | none => exact .inl ⟨rfl, by simp [route, howner]⟩
  | some o =>
    right
    -- The owner goes off the record before anyone looks for the requester, and then once more.
    have htwice : (d.eraseOwner job.internal).markUndeliverable job o.requester =
        (d.withoutOwners [job.internal]).tell [.jobUndeliverable job.internal o.requester] := by
      rw [← herase]
      simp [markUndeliverable, eraseOwner, emit]
    cases hr : (d.eraseOwner job.internal).requester? o.requester with
    | none => exact .inl ⟨o, rfl, by simp only [route, howner, hr, htwice]⟩
    | some r =>
      obtain ⟨hget, hconnected⟩ := requester?_some hr
      obtain ⟨hid, hname⟩ := hd.requester o.requester r hget
      cases hq : r.results.enqueue job with
      | error back =>
        have hback : back = job := by
          unfold JobQueue.enqueue at hq
          split at hq <;> cases hq
          rfl
        subst hback
        exact .inl ⟨o, rfl, by simp only [route, howner, hr, Requester.deliver, hq, htwice]⟩
      | ok pair =>
        obtain ⟨q, e⟩ := pair
        obtain ⟨rfl, rfl⟩ := JobQueue.enqueue_ok hq
        refine .inr ⟨o, r, rfl, hget, hconnected, ?_⟩
        simp only [route, howner, hr, Requester.deliver, hq]
        simp [herase, setRequester, emit, hid, hname, withResult]

theorem takeRequest_cases {d : Directory} (hd : d.Wired) :
    (d.requests.jobs = [] ∧ d.takeRequest = none) ∨
    ∃ job rest, d.requests.jobs = job :: rest ∧ d.takeRequest = some (job,
      (d.withRequests rest).tell [.jobDequeued .requests job.internal]) := by
  cases h : d.requests.jobs with
  | nil => exact .inl ⟨rfl, by simp [takeRequest, JobQueue.tryDequeue, h]⟩
  | cons job rest =>
    exact .inr ⟨job, rest, rfl,
      by simp [takeRequest, JobQueue.tryDequeue, h, emit, hd.requests]⟩

theorem takeCompletion_cases {d : Directory} (hd : d.Wired) :
    (d.completions.jobs = [] ∧ d.takeCompletion = none) ∨
    ∃ job rest, d.completions.jobs = job :: rest ∧ d.takeCompletion = some (job,
      (d.withCompletions rest).tell [.jobDequeued .completions job.internal]) := by
  cases h : d.completions.jobs with
  | nil => exact .inl ⟨rfl, by simp [takeCompletion, JobQueue.tryDequeue, h]⟩
  | cons job rest =>
    exact .inr ⟨job, rest, rfl,
      by simp [takeCompletion, JobQueue.tryDequeue, h, emit, hd.completions]⟩

theorem modify_eq_set {α : Type} {l : List α} {i : Nat} {a : α} (f : α → α) (h : l[i]? = some a) :
    l.modify i f = l.set i (f a) := by
  rw [List.modify_eq_set_getElem?, h]
  rfl

theorem modify_eq_self {α : Type} {l : List α} {i : Nat} (f : α → α) (h : l[i]? = none) :
    l.modify i f = l := by
  rw [List.modify_eq_set_getElem?, h]
  rfl

theorem takeFor_cases (d : Directory) (peer : Endpoint) :
    d.takeFor peer = none ∨
    ∃ job rest, (peer.queue d).jobs = job :: rest ∧ d.takeFor peer = some (job,
      (peer.setQueue d ((peer.queue d).withJobs rest)).tell
        [.jobDequeued (peer.queue d).name job.internal]) := by
  cases h : (peer.queue d).jobs with
  | nil => exact .inl (by simp [takeFor, JobQueue.tryDequeue, h])
  | cons job rest =>
    exact .inr ⟨job, rest, rfl,
      by simp [takeFor, JobQueue.tryDequeue, JobQueue.withJobs, h, emit]⟩

theorem drainFor_eq (d : Directory) (peer : Endpoint) :
    d.drainFor peer = ((peer.queue d).jobs,
      (peer.setQueue d (peer.queue d).spent).tell (drained (peer.queue d))) := by
  rw [tell, drained, ← emitAll_eq, ← JobQueue.drop_drain]
  rfl

theorem leave_worker_eq {d : Directory} (hd : d.Wired) (ha : d.Attended) {id : Nat} {w : Worker}
    (hw : d.workers[id]? = some w) (hc : w.connected = true) (held : List TrackedJob) :
    d.leave (.worker id) held =
      ((d.withWorker id (departedWorker w)).withCompletions (d.completions.jobs ++
        w.outstanding.map fun job => job.withOutcome false (Text.bytes workerDisconnected))).tell
          (.workerRemoved id w.outstanding.length ::
            w.outstanding.reverse.flatMap (rejection workerDisconnected) ++ drained w.jobs) := by
  obtain ⟨rfl, hname⟩ := hd.worker id w hw
  have hlt : w.id < d.workers.length := (List.getElem?_eq_some_iff.1 hw).1
  have hdrain : d.drainFor (.worker w.id) = (w.jobs.jobs,
      (d.withWorker w.id { w with jobs := w.jobs.spent }).tell (drained w.jobs)) := by
    simp [drainFor_eq, Endpoint.queue, Endpoint.setQueue, hw, modify_eq_set _ hw]
  have hd' : (d.withWorker w.id (departedWorker w)).Wired := hd.withWorker hw rfl rfl
  have ha' := ha.withWorker w.id (departedWorker w)
  have hreject := foldl_reject_eq (hd'.tell (drained w.jobs)) (ha'.tell _) w.outstanding
    workerDisconnected
  simp only [departedWorker, tell, withWorker] at hreject
  simp only [leave, hdrain, tell, withWorker, deregisterWorker, worker?,
    List.getElem?_set_self hlt, hc, Option.filter_some, if_true, Worker.takeOutstanding, setWorker,
    List.set_set, hreject]
  simp [emit, departedWorker]

theorem leave_requester_eq {d : Directory} (hd : d.Wired) {id : Nat} {r : Requester}
    (hr : d.requesters[id]? = some r) (hc : r.connected = true) (held : List TrackedJob) :
    d.leave (.requester id) held =
      ((d.withRequester id (departedRequester r)).withoutOwners
        ((held ++ r.results.jobs).map (·.internal))).tell
          (.requesterRemoved id :: undelivered id (held ++ r.results.jobs) ++
            drained r.results) := by
  obtain ⟨rfl, -⟩ := hd.requester id r hr
  have hlt : r.id < d.requesters.length := (List.getElem?_eq_some_iff.1 hr).1
  have hdrain : d.drainFor (.requester r.id) = (r.results.jobs,
      (d.withRequester r.id { r with results := r.results.spent }).tell (drained r.results)) := by
    simp [drainFor_eq, Endpoint.queue, Endpoint.setQueue, hr, modify_eq_set _ hr]
  simp only [leave, hdrain, tell, withRequester, deregisterRequester, requester?,
    List.getElem?_set_self hlt, hc, Option.filter_some, if_true, setRequester, List.set_set,
    foldl_markUndeliverable_eq]
  simp [emit, departedRequester]

end Directory
end JobBroker
