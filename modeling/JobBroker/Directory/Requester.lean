import JobBroker.Queue
/-!
The books of one requester: how much it asked for and how much was sent back. Both counts are taken
to stay below 2 ^ 64, as those of `Ids`.
-/
namespace JobBroker

/-- A requester, connected or gone. -/
structure Requester where
  id : Nat
  peer : String
  /-- The results that wait to be written to its connection. -/
  results : JobQueue
  requested : Nat := 0
  completed : Nat := 0
  connected : Bool := true
  connectedAt : Millis := 0
  deriving DecidableEq, Repr

namespace Requester

def recordRequest (r : Requester) : Requester := { r with requested := r.requested + 1 }

def recordDelivery (r : Requester) : Requester := { r with completed := r.completed + 1 }

def deliver (r : Requester) (job : TrackedJob) : Except TrackedJob (Requester × Event) :=
  match r.results.enqueue job with
  | .error job => .error job
  | .ok (q, e) => .ok ({ r with results := q }, e)

end Requester
end JobBroker
