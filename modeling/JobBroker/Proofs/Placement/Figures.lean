import JobBroker.Placement
import JobBroker.Proofs.Arithmetic

/-! The figures by which workers are compared. The load is their only sum, and the settings put no
limit to the time of a job or to the number of jobs. -/
namespace JobBroker

namespace Worker

/-- The service times of the outstanding jobs together, however much that is. -/
def exactLoad (w : Worker) : Nat :=
  (w.outstanding.map fun j => (w.serviceTime j.jobType).toNat).sum

def load (w : Worker) : UInt64 := UInt64.ofNat w.exactLoad

theorem totalLoad_eq (w : Worker) (build : Build) :
    w.totalLoad build =
      if build.Bears w.exactLoad then .ok w.load else .error .addOverflow := by
  have htimes : (w.outstanding.map fun j => w.serviceTime j.jobType).map UInt64.toNat =
      w.outstanding.map fun j => (w.serviceTime j.jobType).toNat := List.map_map ..
  rw [totalLoad, Build.sum_eq, htimes, load, exactLoad]

end Worker

namespace Candidate

def ofLoad (job : TrackedJob) (w : Worker) : Candidate :=
  { id := w.id, specialty := w.specialty, load := w.load,
    serviceTime := w.serviceTime job.jobType }

theorem ofWorker_eq (build : Build) (job : TrackedJob) (w : Worker) :
    ofWorker build job w =
      if build.Bears w.exactLoad then .ok (ofLoad job w) else .error .addOverflow := by
  rw [ofWorker, Worker.totalLoad_eq]
  split <;> rfl

end Candidate

namespace Directory

def figures (d : Directory) (job : TrackedJob) : List Candidate :=
  (accepting d.connectedWorkers).map (Candidate.ofLoad job)

variable {d : Directory} {workers : List Worker}

theorem candidates_ok (h : ∀ w ∈ workers, d.build.Bears w.exactLoad) (job : TrackedJob) :
    d.candidates workers job = .ok (workers.map (Candidate.ofLoad job)) := by
  induction workers with
  | nil => rfl
  | cons w workers ih =>
    rw [List.forall_mem_cons] at h
    have hrest := ih h.2
    rw [candidates] at hrest ⊢
    rw [List.mapM_cons, Candidate.ofWorker_eq, if_pos h.1, hrest]
    rfl

theorem candidates_error (h : ¬ ∀ w ∈ workers, d.build.Bears w.exactLoad) (job : TrackedJob) :
    d.candidates workers job = .error .addOverflow := by
  induction workers with
  | nil => exact absurd nofun h
  | cons w workers ih =>
    rw [candidates, List.mapM_cons, Candidate.ofWorker_eq]
    by_cases hfirst : d.build.Bears w.exactLoad
    · rw [List.forall_mem_cons, and_iff_right hfirst] at h
      have hrest := ih h
      rw [candidates] at hrest
      rw [if_pos hfirst, hrest]
      rfl
    · rw [if_neg hfirst]
      rfl

end Directory
end JobBroker
