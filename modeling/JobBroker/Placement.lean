import JobBroker.Directory.Basic
/-!
The choice of a worker for a job. Of each specialty the worker with the least load is considered;
of these, the one that should finish the job first. Ties go to the lowest number.
-/
namespace JobBroker

structure Candidate where
  id : Nat
  specialty : JobType
  load : UInt64
  /-- The time of the job to be placed, on this worker. -/
  serviceTime : UInt64
  deriving DecidableEq, Repr

namespace Candidate

/-- When the worker should be done with the job; the largest 64-bit number stands for later. -/
def predicted (c : Candidate) : Nat := min (c.load.toNat + c.serviceTime.toNat) Decimal.maxWord

def ofWorker (build : Build) (job : TrackedJob) (w : Worker) : Except Panic Candidate :=
  (w.totalLoad build).map fun load =>
    { id := w.id, specialty := w.specialty, load := load,
      serviceTime := w.serviceTime job.jobType }

/-- The better of an earlier candidate and a later one by a key and the number; the earlier one
stands in a tie. -/
def better (key : Candidate → Nat) (best : Option Candidate) (c : Candidate) : Option Candidate :=
  match best with
  | none => some c
  | some b => if key c < key b ∨ (key c = key b ∧ c.id < b.id) then some c else some b

def least? (key : Candidate → Nat) (cs : List Candidate) : Option Candidate :=
  cs.foldl (better key) none

def leastLoaded? (cs : List Candidate) (specialty : JobType) : Option Candidate :=
  least? (fun c => c.load.toNat) (cs.filter fun c => c.specialty == specialty)

end Candidate

def selectWorker (cs : List Candidate) : Option Nat :=
  (Candidate.least? Candidate.predicted
    ((Candidate.leastLoaded? cs .a).toList ++ (Candidate.leastLoaded? cs .b).toList)).map (·.id)

namespace Directory

def accepting (workers : List Worker) : List Worker := workers.filter (·.isAccepting)

/-- The figures of workers for a job. A load that cannot be reckoned fails all of them. -/
def candidates (d : Directory) (workers : List Worker) (job : TrackedJob) :
    Except Panic (List Candidate) :=
  workers.mapM (Candidate.ofWorker d.build job)

/-- Give a job to the worker among these that should finish it first. One that is chosen and hands
the job back is left out of the next attempt. Without a worker the job comes back. -/
def attempt (d : Directory) (workers : List Worker) (job : TrackedJob) :
    Except Panic (Directory × Except TrackedJob Nat) :=
  match d.candidates (accepting workers) job with
  | .error panic => .error panic
  | .ok candidates =>
    match selectWorker candidates with
    | none => .ok (d, .error job)
    | some id =>
      match _hfound : (accepting workers).find? fun w => w.id == id with
      | none => .ok (d, .error job)
      | some w =>
        match w.assign (job.withWorker id) with
        | .ok (w, e) => .ok ((d.setWorker w).emit e, .ok id)
        | .error back => d.attempt ((accepting workers).eraseP fun w => w.id == id) back
termination_by workers.length
decreasing_by
  have hle : (accepting workers).length ≤ workers.length := List.length_filter_le ..
  have hpos := List.length_pos_of_mem (List.mem_of_find?_eq_some _hfound)
  rw [List.length_eraseP_of_mem (List.mem_of_find?_eq_some _hfound) (List.find?_some _hfound)]
  omega

def tryAssign (d : Directory) (job : TrackedJob) :
    Except Panic (Directory × Except TrackedJob Nat) :=
  d.attempt d.connectedWorkers job

end Directory
end JobBroker
