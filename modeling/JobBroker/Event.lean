import JobBroker.Job.Tracked
/-!
What the broker tells whoever watches it, and the counters that a watcher keeps, which are taken to
stay below 2 ^ 64, as those of `Ids`.
-/
namespace JobBroker

inductive QueueName where
  | requests
  | completions
  | worker (id : Nat)
  | requester (id : Nat)
  deriving DecidableEq, Repr

inductive Event where
  | requesterAdded (id : Nat) (peer : String)
  | requesterRemoved (id : Nat)
  | workerAdded (id : Nat) (peer : String) (specialty : JobType)
  | workerRemoved (id : Nat) (orphaned : Nat)
  | jobEnqueued (queue : QueueName) (job : Nat)
  | jobDequeued (queue : QueueName) (job : Nat)
  | jobDelivered (job requester : Nat)
  | jobUndeliverable (job requester : Nat)
  | jobRejected (job : Nat) (reason : String)
  | packetDiscarded (peer : String)
  deriving DecidableEq, Repr

structure Stats where
  requested : Nat := 0
  delivered : Nat := 0
  undeliverable : Nat := 0
  rejected : Nat := 0
  discarded : Nat := 0
  workersSeen : Nat := 0
  requestersSeen : Nat := 0
  deriving DecidableEq, Repr

namespace Stats

/-- Count one event. A request counts when it enters the queue of requests. -/
def count (s : Stats) : Event → Stats
  | .jobEnqueued .requests _ => { s with requested := s.requested + 1 }
  | .jobDelivered .. => { s with delivered := s.delivered + 1 }
  | .jobUndeliverable .. => { s with undeliverable := s.undeliverable + 1 }
  | .jobRejected .. => { s with rejected := s.rejected + 1 }
  | .packetDiscarded _ => { s with discarded := s.discarded + 1 }
  | .workerAdded .. => { s with workersSeen := s.workersSeen + 1 }
  | .requesterAdded .. => { s with requestersSeen := s.requestersSeen + 1 }
  | _ => s

/-- The counters after the events of a log, which holds the latest first. -/
def ofLog (log : List Event) : Stats := log.reverse.foldl count {}

end Stats
end JobBroker
