import JobBroker.Arithmetic
import JobBroker.Queue
import JobBroker.Settings.Basic
/-!
The books of one worker: what it was given and has not reported, and what it reported last. How much
it reported is taken to stay below 2 ^ 64, as the counts of `Ids`. Its load is not: any few jobs can
take longer than that together.
-/
namespace JobBroker

/-- A worker, connected or gone. -/
structure Worker where
  id : Nat
  peer : String
  specialty : JobType
  scheduling : Scheduling
  /-- The jobs that wait to be written to its connection. -/
  jobs : JobQueue
  /-- The jobs assigned and not yet reported, in the order of assignment. -/
  outstanding : List TrackedJob := []
  /-- The latest reports, oldest first. -/
  completed : List TrackedJob := []
  completedTotal : Nat := 0
  connected : Bool := true
  connectedAt : Millis := 0
  deriving DecidableEq, Repr

namespace Worker

def historyLimit : Nat := 256

def serviceTime (w : Worker) (t : JobType) : UInt64 := w.scheduling.serviceTime w.specialty t

/-- The service times of the outstanding jobs together. -/
def totalLoad (w : Worker) (build : Build) : Except Panic UInt64 :=
  build.sum (w.outstanding.map fun j => w.serviceTime j.jobType)

def isAccepting (w : Worker) : Bool := !w.jobs.isClosed

def assign (w : Worker) (job : TrackedJob) : Except TrackedJob (Worker × Event) :=
  match w.jobs.enqueue job with
  | .error job => .error job
  | .ok (q, e) => .ok ({ w with jobs := q, outstanding := w.outstanding ++ [job] }, e)

/-- Add a report to the history, which lets go of the oldest when it is full. -/
def remember (history : List TrackedJob) (job : TrackedJob) : List TrackedJob :=
  let longer := history ++ [job]
  if historyLimit < longer.length then longer.drop 1 else longer

def complete (w : Worker) (internal : Nat) (succeeded : Bool) (result : Bytes) :
    Option (TrackedJob × Worker) :=
  match w.outstanding.find? fun j => j.internal == internal with
  | none => none
  | some job =>
    let done := job.withOutcome succeeded result
    some (done,
      { w with
        outstanding := w.outstanding.eraseP fun j => j.internal == internal
        completed := remember w.completed done
        completedTotal := w.completedTotal + 1 })

def takeOutstanding (w : Worker) : List TrackedJob × Worker :=
  (w.outstanding, { w with outstanding := [] })

end Worker
end JobBroker
