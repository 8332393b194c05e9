import JobBroker.Routing
import JobBroker.Scheduler
/-!
A broker: the directory, and the two tasks that move jobs through it. A task owns the consumer of
its queue from its start on and gives it up when it ends.
-/
namespace JobBroker

inductive TaskState (σ : Type) where
  | idle
  | running (state : σ)
  | finished
  deriving DecidableEq, Repr

inductive Activity where
  | waiting
  | finished
  | notRunning
  deriving DecidableEq, Repr

structure Broker where
  directory : Directory := {}
  /-- Whether everything has been told to stop. -/
  stopping : Bool := false
  scheduler : TaskState Scheduler := .idle
  router : TaskState Unit := .idle
  deriving DecidableEq, Repr

namespace Broker

def shutdown (b : Broker) : Broker := { b with stopping := true }

def advance (b : Broker) (span : Millis) : Broker :=
  { b with directory := { b.directory with now := b.directory.now + span } }

def startScheduler (b : Broker) : Broker := { b with scheduler := .running {} }

def startRouter (b : Broker) : Broker := { b with router := .running () }

/-- End the scheduler. A job that it has parked is dropped. -/
def endScheduler (b : Broker) : Broker :=
  { b with
    scheduler := .finished
    directory := { b.directory with requests := b.directory.requests.drop } }

def endRouter (b : Broker) : Broker :=
  { b with
    router := .finished
    directory := { b.directory with completions := b.directory.completions.drop } }

def ofSettings (s : Settings) : Except SettingsError Broker :=
  match s.validate with
  | .error e => .error e
  | .ok () =>
    let b : Broker := { directory := { scheduling := s.scheduling } }
    .ok b.startScheduler.startRouter

/-- Let the scheduler work until it waits. It ends when the broker stops, and when a closed queue
has run dry. -/
def schedule (b : Broker) : Except Panic (Activity × Broker) :=
  match b.scheduler with
  | .idle | .finished => .ok (.notRunning, b)
  | .running s =>
    if b.stopping then .ok (.finished, b.endScheduler)
    else
      match s.settle b.directory with
      | .error panic => .error panic
      | .ok (s, d) =>
        let b := { b with scheduler := .running s, directory := d }
        if s.parked.isNone && d.requests.isClosed then .ok (.finished, b.endScheduler)
        else .ok (.waiting, b)

def routeAll (b : Broker) : Activity × Broker :=
  match b.router with
  | .idle | .finished => (.notRunning, b)
  | .running () =>
    if b.stopping then (.finished, b.endRouter)
    else
      let d := b.directory.routeAll
      let b := { b with directory := d }
      if d.completions.isClosed then (.finished, b.endRouter) else (.waiting, b)

def starve (b : Broker) : Except Panic (Activity × Broker) :=
  match b.schedule with
  | .error panic => .error panic
  | .ok (_, b) => (b.advance (b.directory.scheduling.starvationMillis.toNat + 1)).schedule

end Broker
end JobBroker
