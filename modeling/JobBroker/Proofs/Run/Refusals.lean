import JobBroker.Proofs.Run.Owners
import Mathlib.Data.List.Basic

/-! Refused messages. A message that cannot be read, a report of a job that the worker does not have
and a request that comes too late change nothing but the counter of job numbers; the owner that was
recorded for the request is taken off the record again. A report that comes when nobody takes
finished jobs any more is refused as well, but by then it is in the worker's books: the job is no
longer outstanding, counts as completed, and goes nowhere. -/
namespace JobBroker

theorem JobQueue.enqueue_error {q : JobQueue} {job back : TrackedJob}
    (h : q.enqueue job = .error back) : q.isClosed = true := by
  unfold enqueue at h
  split at h
  · assumption
  · cases h

namespace Directory

/-- The same owners, workers, requesters, queues and log; only numbers may have been drawn. -/
def SameBooks (d' d : Directory) : Prop := { d' with ids := d.ids } = d

instance (d' d : Directory) : Decidable (d'.SameBooks d) := inferInstanceAs (Decidable (_ = _))

theorem SameBooks.refl (d : Directory) : d.SameBooks d := rfl

theorem submit_refused {d : Directory} (hd : d.Numbered) {requester : Nat} {request : Job}
    {e : DirectoryError} (h : (d.submit requester request).2 = .error e) :
    e = .requestsClosed ∧ (d.submit requester request).1.SameBooks d := by
  have hothers := hd.filter_nextJob
  simp only [submit, Ids.drawJob] at h ⊢
  split at h
  · cases h
    refine ⟨rfl, ?_⟩
    simp [SameBooks, eraseOwner, hothers]
  · cases h

/-- A worker reports a job that it has, and nobody takes finished jobs: the report is in its
books. -/
structure RecordsRefused (d : Directory) (worker : Nat) (report : Job) (d' : Directory) : Prop where
  closed : d.completions.isClosed = true
  recorded : ∃ w done w', d.workers[worker]? = some w ∧
    w.complete report.id.toNat report.succeeded report.result = some (done, w') ∧
    d' = d.setWorker w'

theorem complete_refused {d : Directory} {worker : Nat} {report : Job} {e : DirectoryError}
    (h : (d.complete worker report).2 = .error e) :
    (e = .unknownJob worker report.id ∧ (d.complete worker report).1 = d) ∨
      (e = .completionsClosed ∧ d.RecordsRefused worker report (d.complete worker report).1) := by
  unfold complete at h ⊢
  split at h
  · cases h
    exact .inl ⟨rfl, rfl⟩
  · rename_i done w' hreport
    obtain ⟨w, hw, hdone⟩ := Option.bind_eq_some_iff.1 hreport
    dsimp only at h ⊢
    cases henqueue : (d.setWorker w').completions.enqueue done with
    | error back =>
      have hclosed : d.completions.isClosed = true := JobQueue.enqueue_error henqueue
      rw [henqueue] at h
      cases h
      exact .inr ⟨rfl, hclosed, w, done, w', hw, hdone, rfl⟩
    | ok entered =>
      rw [henqueue] at h
      cases h

theorem onWorkerMessage_refused {d : Directory} {id : Nat} {p : Packet} {e : EndpointError}
    (h : (d.onWorkerMessage id p).2 = .error e) :
    (e ≠ .directory .completionsClosed ∧ (d.onWorkerMessage id p).1.SameBooks d) ∨
      (e = .directory .completionsClosed ∧ ∃ worker report,
        Endpoint.worker id = .worker worker ∧ Job.ofResult p = .ok report ∧
        d.RecordsRefused worker report (d.onWorkerMessage id p).1) := by
  cases hread : Job.ofResult p with
  | error cause =>
    simp only [onWorkerMessage, hread, Except.error.injEq] at h ⊢
    subst h
    exact .inl ⟨by simp, .refl d⟩
  | ok report =>
    simp only [onWorkerMessage, hread] at h ⊢
    rcases hcomplete : d.complete id report with ⟨d', cause | job⟩
    · have hcause : (d.complete id report).2 = .error cause := by rw [hcomplete]
      have hrefused := complete_refused hcause
      rw [hcomplete] at h hrefused
      obtain rfl : EndpointError.directory cause = e := by simpa using h
      obtain ⟨rfl, hsame⟩ | ⟨rfl, hrecorded⟩ := hrefused
      · dsimp only at hsame
        exact .inl ⟨by simp, hsame ▸ .refl d⟩
      · exact .inr ⟨rfl, id, report, rfl, rfl, hrecorded⟩
    · rw [hcomplete] at h
      cases h

theorem onRequesterMessage_refused {d : Directory} (hd : d.Numbered) {id : Nat} {p : Packet}
    {e : EndpointError} (h : (d.onRequesterMessage id p).2 = .error e) :
    e ≠ .directory .completionsClosed ∧ (d.onRequesterMessage id p).1.SameBooks d := by
  cases hread : Job.ofRequest p with
  | error cause =>
    simp only [onRequesterMessage, hread, Except.error.injEq] at h ⊢
    subst h
    exact ⟨by simp, .refl d⟩
  | ok request =>
    simp only [onRequesterMessage, hread] at h ⊢
    rcases hsubmit : d.submit id request with ⟨d', cause | number⟩
    · have hcause : (d.submit id request).2 = .error cause := by rw [hsubmit]
      have hrefused := submit_refused hd hcause
      rw [hsubmit] at h hrefused
      obtain rfl : EndpointError.directory cause = e := by simpa using h
      obtain ⟨rfl, hsame⟩ := hrefused
      exact ⟨by simp, hsame⟩
    · rw [hsubmit] at h
      cases h

/-- In every state that a run comes to, whatever has become of the queues, the owners on record have
numbers that were drawn. In such a state a refused message changes nothing but the counter, unless it
is the report of an outstanding job that comes when nobody takes finished jobs. -/
theorem onMessage_refused (build : Build) (scheduling : Scheduling) (now : Millis) :
    (∀ s, System.Reached build scheduling now s → s.directory.Numbered) ∧
    ∀ d : Directory, d.Numbered → ∀ peer p e, (d.onMessage peer p).2 = .error e →
      (e ≠ .directory .completionsClosed ∧ (d.onMessage peer p).1.SameBooks d) ∨
        (e = .directory .completionsClosed ∧ ∃ worker report, peer = .worker worker ∧
          Job.ofResult p = .ok report ∧
          d.RecordsRefused worker report (d.onMessage peer p).1) := by
  refine ⟨fun _ => System.Reached.numbered, fun d hd peer p e h => ?_⟩
  cases peer with
  | worker id => exact onWorkerMessage_refused h
  | requester id =>
    obtain ⟨hother, hsame⟩ := onRequesterMessage_refused hd h
    exact .inl ⟨hother, hsame⟩

end Directory

namespace System

/-- A job is with its worker when the router gives up its queue. -/
def orphaned : Directory :=
  let d := ((start .checked {} 0).run [.requesterJoins "", .workerJoins "" .a,
    .submits 0 ⟨7, .a, false, []⟩, .schedules]).directory
  { d with completions := d.completions.drop }

def report : Packet :=
  ((Packet.set {} .jobId (.scalar "0")).set .jobType (.scalar "A")).set .jobSucceeded
    (.scalar "TRUE")

/-- The report of that job is refused, and yet the job is off the list of outstanding jobs and
counts as completed, while its owner is kept. -/
theorem refused_report_recorded :
    let d' := (orphaned.onMessage (.worker 0) report).1
    (orphaned.onMessage (.worker 0) report).2 = .error (.directory .completionsClosed) ∧
      orphaned.workers.map (fun w => (w.outstanding.map (·.internal), w.completedTotal)) =
        [([0], 0)] ∧
      d'.workers.map (fun w => (w.outstanding.map (·.internal), w.completedTotal)) = [([], 1)] ∧
      d'.owners.map (·.1) = [0] ∧ ¬ d'.SameBooks orphaned := by
  decide +kernel

/-- The refusal of that report is the one that changes the worker's books. -/
theorem onMessage_refused_report :
    orphaned.Numbered ∧
      (orphaned.onMessage (.worker 0) report).2 = .error (.directory .completionsClosed) ∧
      ∃ worker report', Endpoint.worker 0 = .worker worker ∧ Job.ofResult report = .ok report' ∧
        orphaned.RecordsRefused worker report' (orphaned.onMessage (.worker 0) report).1 := by
  have hnumbered : orphaned.Numbered := by decide +kernel
  have hrefused : (orphaned.onMessage (.worker 0) report).2 =
      .error (.directory .completionsClosed) := by decide +kernel
  obtain ⟨-, hall⟩ := Directory.onMessage_refused .checked {} 0
  obtain ⟨hother, -⟩ | ⟨-, hrecorded⟩ := hall _ hnumbered _ _ _ hrefused
  · exact absurd rfl hother
  · exact ⟨hnumbered, hrefused, hrecorded⟩

end System
end JobBroker
