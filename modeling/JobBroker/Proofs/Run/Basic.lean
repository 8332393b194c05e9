import JobBroker.Scheduler
import JobBroker.Routing
import JobBroker.Session.Admission

/-! Runs of a broker: its directory, its scheduler and router, and the sessions of its peers, one
step at a time and in any order. The steps are calls of the operations themselves; what a run
keeps beside them is where the results are that sessions have taken, and a history. -/
namespace JobBroker

namespace Directory

def takeFor (d : Directory) (peer : Endpoint) : Option (TrackedJob × Directory) :=
  match (peer.queue d).tryDequeue with
  | none => none
  | some (job, q, e) => some (job, (peer.setQueue d q).emit e)

def closeFor (d : Directory) (peer : Endpoint) : Directory :=
  peer.setQueue d (peer.queue d).close

def drainFor (d : Directory) (peer : Endpoint) : List TrackedJob × Directory :=
  let (left, q, es) := (peer.queue d).drain
  (left, (peer.setQueue d q.drop).emitAll es)

/-- End the session of a peer that holds the jobs `held` unwritten: drain its queue, and let the
peer go. -/
def leave (d : Directory) (peer : Endpoint) (held : List TrackedJob) : Directory :=
  let (left, d) := d.drainFor peer
  match peer with
  | .worker id => (d.deregisterWorker id).2
  | .requester id => d.deregisterRequester id (held ++ left)

def isConnected (d : Directory) : Endpoint → Bool
  | .worker id => (d.worker? id).isSome
  | .requester id => (d.requester? id).isSome

def newsSince (d earlier : Directory) : List Event :=
  d.log.take (d.log.length - earlier.log.length)

end Directory

inductive Step where
  | requesterJoins (peer : String)
  | workerJoins (peer : String) (specialty : JobType)
  | submits (requester : Nat) (request : Job)
  /-- An iteration of the scheduler. A panic would end the scheduler and its queue with it, and a
  run does not go that far: it stands still. -/
  | schedules
  | reports (worker : Nat) (report : Job)
  | routes
  /-- A session takes the next job off its queue, to write it. -/
  | takes (peer : Endpoint)
  /-- The session of a requester has written the result that it took first. -/
  | writes (requester : Nat)
  /-- A session closes its queue, because it could not write. -/
  | stops (peer : Endpoint)
  | leaves (peer : Endpoint)
  | waits (span : Millis)

/-- What a history tells: what the log tells, and with what arguments requests and reports came. -/
inductive Entry where
  | event (e : Event)
  | submission (id requester : Nat) (request : Job)
  | report (worker : Nat) (report : Job)

/-- A broker in the course of a run. -/
structure System where
  directory : Directory
  scheduler : Scheduler := {}
  /-- The results that sessions took and have not written, by requester, oldest first. -/
  held : List (Nat × TrackedJob) := []
  /-- The results that sessions wrote, by requester, latest first. -/
  written : List (Nat × TrackedJob) := []
  /-- What happened, latest first. -/
  history : List Entry := []

namespace System

def start (build : Build) (scheduling : Scheduling) (now : Millis) : System :=
  { directory := { build := build, scheduling := scheduling, now := now } }

def goOn (s : System) (call : List Entry) (d : Directory) : System :=
  { s with
    directory := d
    history := (d.newsSince s.directory).map .event ++ call ++ s.history }

/-- The results that the session of a peer holds unwritten. -/
def heldBy (s : System) : Endpoint → List TrackedJob
  | .worker _ => []
  | .requester id => (s.held.filter fun h => h.1 == id).map (·.2)

def heldWithout (s : System) : Endpoint → List (Nat × TrackedJob)
  | .worker _ => s.held
  | .requester id => s.held.filter fun h => h.1 != id

/-- A session takes a job. What goes to a worker is a copy of its outstanding job, so that only
results are kept. -/
def take (s : System) (peer : Endpoint) : System :=
  match s.directory.takeFor peer with
  | none => s
  | some (job, d) =>
    match peer with
    | .worker _ => s.goOn [] d
    | .requester id => { s with held := s.held ++ [(id, job)] }.goOn [] d

def write (s : System) (requester : Nat) : System :=
  match s.held.find? fun h => h.1 == requester with
  | none => s
  | some h =>
    { s with
      held := s.held.eraseP fun h => h.1 == requester
      written := h :: s.written }.goOn [] (s.directory.onSent (.requester requester))

def submit (s : System) (requester : Nat) (request : Job) : System :=
  if requester < s.directory.requesters.length then
    match s.directory.submit requester request with
    | (d, .ok id) => s.goOn [.submission id requester request] d
    | (d, .error _) => s.goOn [] d
  else s

def leave (s : System) (peer : Endpoint) : System :=
  if s.directory.isConnected peer then
    { s with held := s.heldWithout peer }.goOn [] (s.directory.leave peer (s.heldBy peer))
  else s

def step (s : System) : Step → System
  | .requesterJoins peer => s.goOn [] (s.directory.registerRequester peer).2
  | .workerJoins peer specialty => s.goOn [] (s.directory.registerWorker peer specialty).2
  | .submits requester request => s.submit requester request
  | .schedules =>
    match s.scheduler.step s.directory with
    | .error _ => s
    | .ok (scheduler, d) => { s with scheduler := scheduler }.goOn [] d
  | .reports worker report =>
    s.goOn [.report worker report] (s.directory.complete worker report).1
  | .routes => (s.directory.routeNext.map fun (_, d) => s.goOn [] d).getD s
  | .takes peer => s.take peer
  | .writes requester => s.write requester
  | .stops peer => s.goOn [] (s.directory.closeFor peer)
  | .leaves peer => s.leave peer
  | .waits span =>
    s.goOn [] { s.directory with now := s.directory.now + span }

def run (s : System) (steps : List Step) : System := steps.foldl step s

theorem run_append (s : System) (steps later : List Step) :
    s.run (steps ++ later) = (s.run steps).run later := List.foldl_append ..

theorem run_concat (s : System) (steps : List Step) (x : Step) :
    s.run (steps ++ [x]) = (s.run steps).step x := s.run_append steps [x]

theorem run_induction {motive : System → Prop} (s : System) (steps : List Step)
    (base : motive s) (next : ∀ s x, motive s → motive (s.step x)) : motive (s.run steps) := by
  induction steps generalizing s with
  | nil => exact base
  | cons x steps ih => exact ih (s.step x) (next s x base)

end System
end JobBroker
