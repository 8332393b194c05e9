import JobBroker.Job.Basic
/-!
The broker's own record of a job in flight. Workers know the job by its internal number, its
requester by the number that it chose itself.
-/
namespace JobBroker

/-- A moment or a span, in milliseconds. -/
abbrev Millis := Nat

structure TrackedJob where
  internal : Nat
  requestId : UInt64
  jobType : JobType
  requester : Nat
  worker : Option Nat := none
  succeeded : Bool := false
  result : Bytes := []
  submittedAt : Millis := 0
  deriving DecidableEq, Repr

namespace TrackedJob

def ofRequest (internal requester : Nat) (request : Job) (now : Millis) : TrackedJob :=
  { internal := internal, requestId := request.id, jobType := request.jobType,
    requester := requester, submittedAt := now }

def same (j k : TrackedJob) : Bool := j.internal == k.internal

def withWorker (j : TrackedJob) (worker : Nat) : TrackedJob := { j with worker := some worker }

def withOutcome (j : TrackedJob) (succeeded : Bool) (result : Bytes) : TrackedJob :=
  { j with succeeded := succeeded, result := result }

def dispatchJob (j : TrackedJob) : Job := { id := UInt64.ofNat j.internal, jobType := j.jobType }

def deliveryJob (j : TrackedJob) : Job :=
  { id := j.requestId, jobType := j.jobType, succeeded := j.succeeded, result := j.result }

end TrackedJob
end JobBroker
