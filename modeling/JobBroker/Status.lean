import JobBroker.Broker
import JobBroker.Text.Json
/-!
What a broker tells over HTTP. There are four addresses under `/api`: three to look at, and one
to stop the broker. Every answer may be read by pages of any origin.
-/
namespace JobBroker

namespace Status

def counter (name : String) (n : Nat) : String × JsonText := (name, .number n)

def totals (s : Stats) : JsonText :=
  .object
    [ counter "requested" s.requested,
      counter "delivered" s.delivered,
      counter "undeliverable" s.undeliverable,
      counter "rejected" s.rejected,
      counter "discarded" s.discarded,
      counter "workers_seen" s.workersSeen,
      counter "requesters_seen" s.requestersSeen ]

def overview (d : Directory) : JsonText :=
  .object
    [ counter "workers" d.connectedWorkers.length,
      counter "requesters" d.connectedRequesters.length,
      counter "in_flight" d.inFlight,
      counter "pending_requests" d.requests.length,
      counter "pending_completions" d.completions.length,
      ("totals", totals d.stats) ]

def seconds (since now : Millis) : Nat := (now - since) / 1000

def worker (build : Build) (now : Millis) (w : Worker) : Except Panic JsonText :=
  (w.totalLoad build).map fun load =>
    .object
      [ counter "id" w.id,
        ("peer", .string w.peer),
        ("specialty", .string w.specialty.name),
        counter "load" load.toNat,
        counter "outstanding" w.outstanding.length,
        counter "queued" w.jobs.length,
        counter "completed" w.completedTotal,
        counter "connected_secs" (seconds w.connectedAt now) ]

def workers (d : Directory) : Except Panic JsonText :=
  (d.connectedWorkers.mapM (worker d.build d.now)).map fun all =>
    .object [("workers", .list all)]

def requester (now : Millis) (r : Requester) : JsonText :=
  .object
    [ counter "id" r.id,
      ("peer", .string r.peer),
      counter "requested" r.requested,
      counter "completed" r.completed,
      counter "queued" r.results.length,
      counter "connected_secs" (seconds r.connectedAt now) ]

def requesters (d : Directory) : JsonText :=
  .object [("requesters", .list (d.connectedRequesters.map (requester d.now)))]

end Status

structure Response where
  status : Nat
  contentType : Option String := none
  allowOrigin : String := "*"
  body : String := ""
  deriving DecidableEq, Repr

def Response.json (body : JsonText) : Response :=
  { status := 200, contentType := some "application/json", body := body.render }

def Response.withoutBody (r : Response) : Response := { r with body := "" }

inductive Route where
  | status
  | workers
  | requesters
  | shutdown
  deriving DecidableEq, Repr

namespace Route

def all : List Route := [status, workers, requesters, shutdown]

def path : Route → String
  | status => "/api/status"
  | workers => "/api/workers"
  | requesters => "/api/requesters"
  | shutdown => "/api/shutdown"

def method : Route → String
  | shutdown => "POST"
  | status | workers | requesters => "GET"

def ofPath? (path : String) : Option Route :=
  all.find? fun r => r.path.toList == path.toList.takeWhile fun c => c != '?' && c != '#'

end Route

namespace Broker

def look (b : Broker) : Route → Option (Except Panic JsonText)
  | .status => some (.ok (Status.overview b.directory))
  | .workers => some (Status.workers b.directory)
  | .requesters => some (.ok (Status.requesters b.directory))
  | .shutdown => none

/-- Answer an HTTP request. Asking for the permitted methods is answered everywhere; an unknown
address comes before a method that the address does not know. -/
def respond (b : Broker) (method path : String) : Except Panic (Response × Broker) :=
  if method = "OPTIONS" then .ok ({ status := 200 }, b)
  else
    match Route.ofPath? path with
    | none => .ok ({ status := 404 }, b)
    | some route =>
      match b.look route with
      | some body =>
        if method = route.method then body.map fun body => (.json body, b)
        else if method = "HEAD" then
          body.map fun body => ((Response.json body).withoutBody, b)
        else .ok ({ status := 405 }, b)
      | none =>
        if method = route.method then
          .ok (.json (.object [("message", .string "Shutdown initiated")]), b.shutdown)
        else .ok ({ status := 405 }, b)

end Broker
end JobBroker
