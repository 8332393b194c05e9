import JobBroker.Placement
/-!
The scheduler takes requests in order and places each on a worker. A job that nobody can take is
parked, and those behind it wait; once it has waited too long in all, it is failed.
-/
namespace JobBroker

def noWorkerAvailable : String := "NO_WORKER_AVAILABLE"

/-- Whether a job has waited as long as it may, counted from its submission. -/
def Directory.isOverdue (d : Directory) (job : TrackedJob) : Bool :=
  match d.scheduling.starvation? with
  | none => false
  | some limit => job.submittedAt + limit ≤ d.now

/-- The scheduler between two steps, with the job that it could not place yet. -/
structure Scheduler where
  parked : Option TrackedJob := none
  deriving DecidableEq, Repr

namespace Scheduler

def place (d : Directory) (job : TrackedJob) : Except Panic (Scheduler × Directory) :=
  match d.tryAssign job with
  | .error panic => .error panic
  | .ok (d, .ok _) => .ok ({}, d)
  | .ok (d, .error job) =>
    if d.isOverdue job then .ok ({}, d.reject job noWorkerAvailable)
    else .ok ({ parked := some job }, d)

def step (s : Scheduler) (d : Directory) : Except Panic (Scheduler × Directory) :=
  match s.parked with
  | some job => place d job
  | none =>
    match d.takeRequest with
    | none => .ok (s, d)
    | some (job, d) => place d job

def run : Nat → Scheduler → Directory → Except Panic (Scheduler × Directory)
  | 0, s, d => .ok (s, d)
  | n + 1, s, d =>
    match s.step d with
    | .error panic => .error panic
    | .ok ({ parked := none }, d) => run n {} d
    | .ok (s, d) => .ok (s, d)

def settle (s : Scheduler) (d : Directory) : Except Panic (Scheduler × Directory) :=
  s.run (d.requests.length + 1) d

end Scheduler
end JobBroker
