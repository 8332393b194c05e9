import JobBroker.Proofs.Run.Conservation

/-! The fate of a job by the history, and the invariant that ties the records of jobs to their
submissions and their fates. -/
namespace JobBroker

inductive Settlement where
  | reported (worker : Nat) (report : Job)
  | disconnected (worker : Nat)
  | starved
  deriving DecidableEq, Repr

def Settlement.outcome : Settlement → Bool × Bytes
  | reported _ report => (report.succeeded, report.result)
  | disconnected _ => (false, Text.bytes workerDisconnected)
  | starved => (false, Text.bytes noWorkerAvailable)

inductive Fate where
  | waiting
  /-- Given last to this worker, which neither reported it nor went since. -/
  | given (worker : Nat)
  | settled (how : Settlement)
  deriving DecidableEq, Repr

/-- The fate of a job after one more entry in the history. A report counts if it comes from the
worker that has the job and names the job. -/
def Fate.next (id : Nat) (f : Fate) : Entry → Fate
  | .event (.jobEnqueued (.worker worker) job) => if job = id then given worker else f
  | .event (.jobRejected job reason) =>
    if job = id ∧ reason = noWorkerAvailable then settled .starved else f
  | .event (.workerRemoved worker _) =>
    if f = given worker then settled (.disconnected worker) else f
  | .report worker report =>
    if f = given worker ∧ report.id.toNat = id then settled (.reported worker report) else f
  | _ => f

/-- The fate of a job by a history, which has the latest entry first. -/
def fate (id : Nat) : List Entry → Fate
  | [] => .waiting
  | e :: history => (fate id history).next id e

inductive Stage where
  | pending
  | outstanding (worker : Nat)
  | finished
  | delivered (requester : Nat)
  deriving DecidableEq, Repr

/-- What a record at this stage says about the fate of its job. -/
def Stage.Suits (f : Fate) (job : TrackedJob) : Stage → Prop
  | pending => f = .waiting
  | outstanding worker => f = .given worker
  | finished => ∃ how, f = .settled how ∧ (job.succeeded, job.result) = how.outcome
  | delivered requester =>
    job.requester = requester ∧ ∃ how, f = .settled how ∧ (job.succeeded, job.result) = how.outcome

namespace Directory

def outstandingWith (d : Directory) (worker : Nat) : List TrackedJob :=
  (d.workers[worker]?.map (·.outstanding)).getD []

def resultsFor (d : Directory) (requester : Nat) : List TrackedJob :=
  (d.requesters[requester]?.map (·.results.jobs)).getD []

end Directory

namespace System

def submissionsOf (s : System) (id : Nat) : List (Nat × Job) :=
  s.history.filterMap fun
    | .submission job requester request => if job = id then some (requester, request) else none
    | _ => none

/-- The records of the jobs that have come so far. What was delivered to a requester is in its
queue of results, with its session, or written. -/
def jobsAt (s : System) : Stage → List TrackedJob
  | .pending => s.directory.requests.jobs ++ s.scheduler.parked.toList
  | .outstanding worker => s.directory.outstandingWith worker
  | .finished => s.directory.completions.jobs
  | .delivered requester =>
    s.directory.resultsFor requester ++
      ((s.held ++ s.written).filter fun h => h.1 == requester).map (·.2)

/-- A job that was submitted once, by its requester, with its own number and its type. -/
def Genuine (s : System) (job : TrackedJob) : Prop :=
  ∃ request, s.submissionsOf job.internal = [(job.requester, request)] ∧
    job.requestId = request.id ∧ job.jobType = request.jobType

/-- Owners and records are those of submissions, and a record is where its fate has taken it. -/
structure Faithful (s : System) : Prop where
  unborn : ∀ id, s.submissionsOf id = [] → fate id s.history = .waiting
  owners : ∀ id o, (id, o) ∈ s.directory.owners →
    ∃ request, s.submissionsOf id = [(o.requester, request)]
  genuine : ∀ stage, ∀ job ∈ s.jobsAt stage, s.Genuine job
  suits : ∀ stage, ∀ job ∈ s.jobsAt stage, stage.Suits (fate job.internal s.history) job

end System

section Fate
variable {id : Nat} {history : List Entry}

@[simp] theorem fate_cons (e : Entry) : fate id (e :: history) = (fate id history).next id e := rfl

theorem fate_append_of_ignored {es : List Entry} (h : ∀ e ∈ es, ∀ f : Fate, f.next id e = f) :
    fate id (es ++ history) = fate id history := by
  induction es with
  | nil => rfl
  | cons e es ih =>
    rw [List.cons_append, fate_cons, h e (List.mem_cons_self ..),
      ih fun e' he' => h e' (List.mem_cons_of_mem e he')]

theorem fate_drained (q : JobQueue) :
    fate id ((Directory.drained q).map Entry.event ++ history) = fate id history := by
  refine fate_append_of_ignored fun e he f => ?_
  simp only [Directory.drained, List.mem_map, List.mem_reverse] at he
  obtain ⟨-, ⟨job, -, rfl⟩, rfl⟩ := he
  rfl

theorem fate_undelivered (requester : Nat) (jobs : List TrackedJob) :
    fate id ((Directory.undelivered requester jobs).map Entry.event ++ history) =
      fate id history := by
  refine fate_append_of_ignored fun e he f => ?_
  simp only [Directory.undelivered, List.mem_map, List.mem_reverse] at he
  obtain ⟨-, ⟨job, -, rfl⟩, rfl⟩ := he
  rfl

theorem fate_orphans (jobs : List TrackedJob) :
    fate id ((jobs.flatMap (Directory.rejection workerDisconnected)).map Entry.event ++ history) =
      fate id history := by
  refine fate_append_of_ignored fun e he f => ?_
  simp only [Directory.rejection, List.mem_map, List.mem_flatMap, List.mem_cons, List.not_mem_nil,
    or_false] at he
  obtain ⟨-, ⟨job, -, rfl | rfl⟩, rfl⟩ := he
  · rfl
  · have hother : workerDisconnected ≠ noWorkerAvailable := by decide
    simp only [Fate.next, hother, and_false, if_false]

end Fate

namespace Directory
variable {d : Directory}

theorem getD_set {α β : Type} (f : α → β) {z : β} {l : List α} {i : Nat} {a : α} (b : α)
    (h : l[i]? = some a) (k : Nat) :
    ((l.set i b)[k]?.map f).getD z = if k = i then f b else (l[k]?.map f).getD z := by
  have hlt := (List.getElem?_eq_some_iff.1 h).1
  by_cases hk : k = i
  · subst hk
    simp [hlt]
  · simp [hk, Ne.symm hk]

theorem getD_concat {α β : Type} (f : α → β) {z : β} (l : List α) {a : α} (h : f a = z) (k : Nat) :
    ((l ++ [a])[k]?.map f).getD z = (l[k]?.map f).getD z := by
  by_cases hk : k < l.length
  · rw [List.getElem?_append_left hk]
  · rw [List.getElem?_append_right (by omega), List.getElem?_eq_none (Nat.le_of_not_lt hk)]
    cases k - l.length <;> simp [h]

theorem outstandingWith_eq {i : Nat} {w : Worker} (h : d.workers[i]? = some w) :
    d.outstandingWith i = w.outstanding := by
  rw [outstandingWith, h]
  rfl

theorem mem_outstandingWith_withWorker {i k : Nat} {w w' : Worker} {job : TrackedJob}
    (place : d.workers[i]? = some w) (h : job ∈ (d.withWorker i w').outstandingWith k) :
    k = i ∧ job ∈ w'.outstanding ∨ k ≠ i ∧ job ∈ d.outstandingWith k := by
  have hset : (d.withWorker i w').outstandingWith k =
      if k = i then w'.outstanding else d.outstandingWith k := getD_set _ w' place k
  rw [hset] at h
  split at h
  · exact .inl ⟨‹_›, h⟩
  · exact .inr ⟨‹_›, h⟩

@[simp] theorem outstandingWith_joinedWorker (peer : String) (specialty : JobType) (k : Nat) :
    (d.joinedWorker peer specialty).outstandingWith k = d.outstandingWith k :=
  getD_concat _ _ (by rfl) k

theorem resultsFor_eq {i : Nat} {r : Requester} (h : d.requesters[i]? = some r) :
    d.resultsFor i = r.results.jobs := by
  rw [resultsFor, h]
  rfl

theorem mem_resultsFor_withRequester {i k : Nat} {r r' : Requester} {job : TrackedJob}
    (place : d.requesters[i]? = some r) (h : job ∈ (d.withRequester i r').resultsFor k) :
    k = i ∧ job ∈ r'.results.jobs ∨ k ≠ i ∧ job ∈ d.resultsFor k := by
  have hset : (d.withRequester i r').resultsFor k =
      if k = i then r'.results.jobs else d.resultsFor k := getD_set _ r' place k
  rw [hset] at h
  split at h
  · exact .inl ⟨‹_›, h⟩
  · exact .inr ⟨‹_›, h⟩

@[simp] theorem resultsFor_joinedRequester (peer : String) (k : Nat) :
    (d.joinedRequester peer).resultsFor k = d.resultsFor k := getD_concat _ _ (by rfl) k

@[simp] theorem resultsFor_modifyRequester (i : Nat) (f : Requester → Requester)
    (h : ∀ r, (f r).results = r.results) (k : Nat) :
    (d.modifyRequester i f).resultsFor k = d.resultsFor k := by
  simp only [resultsFor, modifyRequester, List.getElem?_modify]
  cases d.requesters[k]? with
  | none => rfl
  | some r => by_cases hk : i = k <;> simp [hk, h]

end Directory

theorem Stage.Suits.eq_pending {stage : Stage} {job : TrackedJob} (h : stage.Suits .waiting job) :
    stage = .pending := by
  cases stage with
  | pending => rfl
  | outstanding => cases h
  | finished => exact nomatch h.choose_spec.1
  | delivered => exact nomatch h.2.choose_spec.1

theorem Stage.Suits.eq_outstanding {stage : Stage} {worker : Nat} {job : TrackedJob}
    (h : stage.Suits (.given worker) job) : stage = .outstanding worker := by
  cases stage with
  | pending => cases h
  | outstanding => rw [Fate.given.inj h]
  | finished => exact nomatch h.choose_spec.1
  | delivered => exact nomatch h.2.choose_spec.1

namespace System
variable {s t : System}

theorem length_submissionsOf (s : System) (id : Nat) :
    (s.submissionsOf id).length = s.issued.count id := by
  simp only [submissionsOf, issued]
  induction s.history with
  | nil => rfl
  | cons e history ih =>
    cases e with
    | submission job requester request =>
      by_cases h : job = id
      · simp [h, ih]
      · simp [h, ih]
    | event e => simpa [List.filterMap_cons] using ih
    | report worker report => simpa [List.filterMap_cons] using ih

@[simp] theorem submissionsOf_moveTo (call : List Entry) (d : Directory) (es : List Event)
    (id : Nat) : (s.moveTo call d es).submissionsOf id =
      ({ s with history := call ++ s.history }).submissionsOf id := by
  simp [submissionsOf, List.filterMap_map]

theorem Faithful.move (hs : s.Faithful) (hsub : ∀ id, t.submissionsOf id = s.submissionsOf id)
    (howners : ∀ o ∈ t.directory.owners, o ∈ s.directory.owners)
    (hfate : ∀ id, s.submissionsOf id = [] → fate id t.history = fate id s.history)
    (hjobs : ∀ stage, ∀ job ∈ t.jobsAt stage,
      s.Genuine job ∧ stage.Suits (fate job.internal t.history) job) : t.Faithful where
  unborn id h := by
    rw [hsub] at h
    rw [hfate id h]
    exact hs.unborn id h
  owners id o h := by
    rw [hsub]
    exact hs.owners id o (howners _ h)
  genuine stage job h := by
    rw [Genuine, hsub]
    exact (hjobs stage job h).1
  suits stage job h := (hjobs stage job h).2

theorem Faithful.keep (hs : s.Faithful) (hsub : ∀ id, t.submissionsOf id = s.submissionsOf id)
    (howners : ∀ o ∈ t.directory.owners, o ∈ s.directory.owners)
    (hfate : ∀ id, fate id t.history = fate id s.history)
    (hjobs : ∀ stage, ∀ job ∈ t.jobsAt stage, job ∈ s.jobsAt stage) : t.Faithful := by
  refine hs.move hsub howners (fun id _ => hfate id) fun stage job h => ?_
  have hold := hjobs stage job h
  rw [hfate]
  exact ⟨hs.genuine stage job hold, hs.suits stage job hold⟩

theorem mem_delivered (s : System) (requester : Nat) (job : TrackedJob) :
    job ∈ s.jobsAt (.delivered requester) ↔ job ∈ s.directory.resultsFor requester ∨
      (requester, job) ∈ s.held ∨ (requester, job) ∈ s.written := by
  simp [jobsAt, List.mem_filter]

theorem Genuine.submitted {job : TrackedJob} (h : s.Genuine job) :
    s.submissionsOf job.internal ≠ [] := by
  obtain ⟨request, hsub, -⟩ := h
  rw [hsub]
  exact List.cons_ne_nil _ _

theorem Faithful.only_pending (hs : s.Faithful) {stage : Stage} {job j : TrackedJob}
    (hjob : job ∈ s.jobsAt .pending) (hj : j ∈ s.jobsAt stage) (hsame : j.internal = job.internal) :
    stage = .pending := by
  have hwaiting : fate job.internal s.history = .waiting := hs.suits .pending job hjob
  have hsuits := hs.suits stage j hj
  rw [hsame, hwaiting] at hsuits
  exact hsuits.eq_pending

theorem Faithful.only_outstanding (hs : s.Faithful) {stage : Stage} {worker : Nat}
    {job j : TrackedJob} (hjob : job ∈ s.jobsAt (.outstanding worker)) (hj : j ∈ s.jobsAt stage)
    (hsame : j.internal = job.internal) : stage = .outstanding worker := by
  have hgiven : fate job.internal s.history = .given worker := hs.suits _ job hjob
  have hsuits := hs.suits stage j hj
  rw [hsame, hgiven] at hsuits
  exact hsuits.eq_outstanding

theorem Faithful.shift (hs : s.Faithful) (job moved : TrackedJob) (origin target : Stage)
    (hsub : ∀ id, t.submissionsOf id = s.submissionsOf id)
    (howners : ∀ o ∈ t.directory.owners, o ∈ s.directory.owners)
    (hgenuine : s.Genuine job) (hmoved : s.Genuine moved)
    (honly : ∀ stage, ∀ j ∈ s.jobsAt stage, j.internal = job.internal → stage = origin)
    (hfate : ∀ id, id ≠ job.internal → fate id t.history = fate id s.history)
    (htarget : target.Suits (fate moved.internal t.history) moved)
    (hjobs : ∀ stage, ∀ j ∈ t.jobsAt stage, (stage = target ∧ j = moved) ∨
      j ∈ s.jobsAt stage ∧ (stage = origin → j.internal ≠ job.internal)) : t.Faithful := by
  refine hs.move hsub howners (fun id hid => hfate id ?_) fun stage j hj => ?_
  · rintro rfl
    exact hgenuine.submitted hid
  · obtain ⟨rfl, rfl⟩ | ⟨hold, hother⟩ := hjobs stage j hj
    · exact ⟨hmoved, htarget⟩
    · have hne : j.internal ≠ job.internal := fun hsame =>
        hother (honly stage j hold hsame) hsame
      rw [hfate _ hne]
      exact ⟨hs.genuine stage j hold, hs.suits stage j hold⟩

theorem ne_of_tally_le_one {job : TrackedJob} {jobs rest : List TrackedJob}
    (hperm : (job :: rest).Perm jobs) (hone : tally job.internal jobs ≤ 1) :
    ∀ j ∈ rest, j.internal ≠ job.internal := by
  intro j hj hsame
  have hpos := tally_pos_of_mem hj
  rw [← tally_perm _ hperm, tally_cons, beq_self_eq_true, Bool.toNat_true] at hone
  rw [hsame] at hpos
  omega

theorem mem_pending_of_parked {job : TrackedJob} (parked : s.scheduler.parked = some job) :
    job ∈ s.jobsAt .pending := by
  rw [jobsAt, parked]
  exact List.mem_append_right _ (List.mem_singleton_self job)

theorem Conserved.parked_only (hc : s.Conserved) {job : TrackedJob}
    (parked : s.scheduler.parked = some job) :
    ∀ j ∈ s.directory.requests.jobs, j.internal ≠ job.internal := by
  have hone := hc.one_place job.internal
  rw [length_inFlightAt, parked, Option.toList_some] at hone
  refine ne_of_tally_le_one (List.perm_append_singleton job _).symm ?_
  rw [tally_append]
  omega

theorem Conserved.outstanding_only (hc : s.Conserved) {i : Nat} {w : Worker} {job : TrackedJob}
    (place : s.directory.workers[i]? = some w)
    (found : w.outstanding.find? (fun j => j.internal == job.internal) = some job) :
    ∀ j ∈ w.outstanding.eraseP (fun j => j.internal == job.internal),
      j.internal ≠ job.internal := by
  have hone := hc.one_place job.internal
  have hsum := tally_flatMap_set job.internal (·.outstanding) (Directory.departedWorker w) place
  simp only [Directory.departedWorker_outstanding, tally_nil] at hsum
  rw [length_inFlightAt] at hone
  exact ne_of_tally_le_one (perm_eraseP_of_find? found) (by omega)

end System
end JobBroker
