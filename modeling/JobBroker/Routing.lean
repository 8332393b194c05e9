import JobBroker.Directory.Basic
/-!
Finished jobs handed to those who asked for them.
-/
namespace JobBroker

inductive Routing where
  | delivered (requester : Nat)
  /-- Its requester is gone, or takes no more results. -/
  | undeliverable (requester : Nat)
  /-- The job has no owner, because it has reached its end before. -/
  | unknown
  deriving DecidableEq, Repr

namespace Directory

/-- Route one finished job. Its owner is forgotten in every case. -/
def route (d : Directory) (job : TrackedJob) : Routing × Directory :=
  match d.owner? job.internal with
  | none => (.unknown, d)
  | some owner =>
    let id := owner.requester
    let d := d.eraseOwner job.internal
    match d.requester? id with
    | none => (.undeliverable id, d.markUndeliverable job id)
    | some r =>
      match r.deliver job with
      | .error job => (.undeliverable id, d.markUndeliverable job id)
      | .ok (r, e) =>
        (.delivered id, ((d.setRequester r).emit e).emit (.jobDelivered job.internal id))

def routeNext (d : Directory) : Option (Routing × Directory) :=
  d.takeCompletion.map fun (job, d) => d.route job

def routeMany : Nat → Directory → Directory
  | 0, d => d
  | n + 1, d =>
    match d.routeNext with
    | none => d
    | some (_, d) => routeMany n d

def routeAll (d : Directory) : Directory := routeMany d.completions.length d

end Directory
end JobBroker
