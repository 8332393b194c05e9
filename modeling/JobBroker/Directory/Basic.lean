import JobBroker.Directory.Requester
import JobBroker.Directory.Worker
import JobBroker.Ids
/-!
The directory: every requester and worker, the owner of every job in flight, and the two queues
that all of them share. A job has an owner from its submission until it is routed, and every
change is told to the log.
-/
namespace JobBroker

structure Owner where
  requester : Nat
  requestId : UInt64
  jobType : JobType
  deriving DecidableEq, Repr

inductive DirectoryError where
  | unknownJob (worker : Nat) (job : UInt64)
  | requestsClosed
  | completionsClosed
  deriving DecidableEq, Repr

def DirectoryError.message : DirectoryError → String
  | unknownJob w j => s!"worker {Decimal.write w} has no outstanding job {Decimal.write j.toNat}"
  | requestsClosed => "request queue is closed"
  | completionsClosed => "completion queue is closed"

/-- The directory. Requesters and workers stand at the places of their numbers and stay there
after they have gone, since a session may still hold on to one. -/
structure Directory where
  /-- How the program that keeps the directory was built. -/
  build : Build := .checked
  scheduling : Scheduling := {}
  now : Millis := 0
  ids : Ids := {}
  requesters : List Requester := []
  workers : List Worker := []
  /-- The owners of the jobs in flight, by internal number, latest first. -/
  owners : List (Nat × Owner) := []
  requests : JobQueue := { name := .requests }
  completions : JobQueue := { name := .completions }
  /-- What happened, latest first. -/
  log : List Event := []
  deriving DecidableEq, Repr

def workerDisconnected : String := "WORKER_DISCONNECTED"

namespace Directory

def emit (d : Directory) (e : Event) : Directory := { d with log := e :: d.log }

def emitAll (d : Directory) (es : List Event) : Directory := es.foldl emit d

def requester? (d : Directory) (id : Nat) : Option Requester :=
  d.requesters[id]?.filter (·.connected)

def worker? (d : Directory) (id : Nat) : Option Worker := d.workers[id]?.filter (·.connected)

def connectedRequesters (d : Directory) : List Requester := d.requesters.filter (·.connected)

def connectedWorkers (d : Directory) : List Worker := d.workers.filter (·.connected)

def setRequester (d : Directory) (r : Requester) : Directory :=
  { d with requesters := d.requesters.set r.id r }

def modifyRequester (d : Directory) (id : Nat) (f : Requester → Requester) : Directory :=
  { d with requesters := d.requesters.modify id f }

def setWorker (d : Directory) (w : Worker) : Directory :=
  { d with workers := d.workers.set w.id w }

def owner? (d : Directory) (job : Nat) : Option Owner :=
  (d.owners.find? fun o => o.1 == job).map (·.2)

def eraseOwner (d : Directory) (job : Nat) : Directory :=
  { d with owners := d.owners.filter fun o => o.1 != job }

def inFlight (d : Directory) : Nat := d.owners.length

def stats (d : Directory) : Stats := Stats.ofLog d.log

def registerRequester (d : Directory) (peer : String) : Nat × Directory :=
  let (id, ids) := d.ids.drawRequester
  let r : Requester :=
    { id := id, peer := peer, connectedAt := d.now,
      results := { name := .requester id } }
  (id, { d with ids := ids, requesters := d.requesters ++ [r] }.emit (.requesterAdded id peer))

def registerWorker (d : Directory) (peer : String) (specialty : JobType) : Nat × Directory :=
  let (id, ids) := d.ids.drawWorker
  let w : Worker :=
    { id := id, peer := peer, specialty := specialty, scheduling := d.scheduling,
      connectedAt := d.now, jobs := { name := .worker id } }
  (id, { d with ids := ids, workers := d.workers ++ [w] }.emit (.workerAdded id peer specialty))

def markUndeliverable (d : Directory) (job : TrackedJob) (requester : Nat) : Directory :=
  (d.eraseOwner job.internal).emit (.jobUndeliverable job.internal requester)

/-- Fail a job, with the reason as its result. Without a queue to go to, the job is lost. -/
def reject (d : Directory) (job : TrackedJob) (reason : String) : Directory :=
  let d := d.emit (.jobRejected job.internal reason)
  match d.completions.enqueue (job.withOutcome false (Text.bytes reason)) with
  | .ok (q, e) => { d with completions := q }.emit e
  | .error _ => d.eraseOwner job.internal

/-- Let a requester go. Results that its session did not write are undeliverable. -/
def deregisterRequester (d : Directory) (id : Nat) (unsent : List TrackedJob) : Directory :=
  match d.requester? id with
  | none => d
  | some r =>
    let d := d.setRequester { r with connected := false }
    (unsent.foldl (fun d job => d.markUndeliverable job id) d).emit (.requesterRemoved id)

/-- Let a worker go, once nothing can be assigned to it any more. Its outstanding jobs are
failed, and their number is told. -/
def deregisterWorker (d : Directory) (id : Nat) : Nat × Directory :=
  match d.worker? id with
  | none => (0, d)
  | some w =>
    let (orphans, w) := w.takeOutstanding
    let d := d.setWorker { w with connected := false }
    let d := orphans.foldl (fun d job => d.reject job workerDisconnected) d
    (orphans.length, d.emit (.workerRemoved id orphans.length))

/-- Take a request on: record its owner under a fresh number and queue it. The owner is forgotten
again if the queue hands the job back. -/
def submit (d : Directory) (requester : Nat) (request : Job) :
    Directory × Except DirectoryError Nat :=
  let (internal, ids) := d.ids.drawJob
  let owner : Owner :=
    { requester := requester, requestId := request.id, jobType := request.jobType }
  let d := { d with ids := ids, owners := (internal, owner) :: d.owners }
  match d.requests.enqueue (.ofRequest internal requester request d.now) with
  | .error _ => (d.eraseOwner internal, .error .requestsClosed)
  | .ok (q, e) =>
    let d := { d with requests := q }.emit e
    (d.modifyRequester requester Requester.recordRequest, .ok internal)

def complete (d : Directory) (worker : Nat) (result : Job) :
    Directory × Except DirectoryError TrackedJob :=
  match d.workers[worker]?.bind fun w =>
      w.complete result.id.toNat result.succeeded result.result with
  | none => (d, .error (.unknownJob worker result.id))
  | some (job, w) =>
    let d := d.setWorker w
    match d.completions.enqueue job with
    | .error _ => (d, .error .completionsClosed)
    | .ok (q, e) => ({ d with completions := q }.emit e, .ok job)

def takeRequest (d : Directory) : Option (TrackedJob × Directory) :=
  match d.requests.tryDequeue with
  | none => none
  | some (job, q, e) => some (job, { d with requests := q }.emit e)

def takeCompletion (d : Directory) : Option (TrackedJob × Directory) :=
  match d.completions.tryDequeue with
  | none => none
  | some (job, q, e) => some (job, { d with completions := q }.emit e)

end Directory
end JobBroker
