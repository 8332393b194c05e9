import JobBroker.Control.Outcome
import JobBroker.Text.Columns
/-!
The control program as a requester: it asks for jobs of one type with successive numbers, and
shows the results until it has seen as many as it asked for.
-/
namespace JobBroker.Control

structure Conversation where
  output : List String := []
  complaint : List String := []
  outlet : Outlet
  failure : Option Failure := none
  deriving DecidableEq, Repr

/-- The numbers from `first` up to and without `first + count`. An end that has run over lies below
the beginning. -/
def jobIds (build : Build) (first count : UInt64) : Except Panic (List UInt64) :=
  (build.add first count).map fun stop =>
    (List.range (stop.toNat - first.toNat)).map fun i => first + UInt64.ofNat i

def requestAll (jobType : JobType) (o : Outlet) : List UInt64 → Option Failure × Outlet
  | [] => (none, o)
  | id :: ids =>
    match o.sendPacket { id := id, jobType := jobType : Job }.requestPacket with
    | (.error e, o) => (some (.jobNotSent id e), o)
    | (.ok (), o) => requestAll jobType o ids

structure Tally where
  received : Nat := 0
  failed : Nat := 0
  output : List String := []
  complaint : List String := []
  deriving DecidableEq, Repr

namespace Tally

def add (t : Tally) (job : Job) : Tally :=
  let verdict := if job.succeeded then "ok" else "FAILED"
  let line :=
    s!"  job {Text.alignRight 6 (Decimal.write job.id.toNat)}  {job.jobType.name}  " ++
      s!"{Text.alignLeft 6 verdict}  {String.ofList (Text.decodeLossy job.result)}"
  { t with
    received := t.received + 1
    failed := t.failed + (if job.succeeded then 0 else 1)
    output := t.output ++ [line] }

def note (t : Tally) (line : String) : Tally := { t with complaint := t.complaint ++ [line] }

def take (t : Tally) (p : Packet) : Tally :=
  match Job.ofResult p with
  | .ok job => t.add job
  | .error e => t.note s!"  ignoring malformed result: {e.message}"

/-- Take what comes until `count` results have been seen. What comes ends with the end of the
stream, or with the failure `cut`. -/
def collect (count : Nat) (cut : Failure) (t : Tally) : List Inbound → Tally × Option Failure
  | [] => (t, if t.received = count then none else some cut)
  | item :: rest =>
    if t.received = count then (t, none)
    else
      match item with
      | .message p => collect count cut (t.take p) rest
      | .malformed e => collect count cut (t.note s!"  discarded input: {e.message}") rest
      | .closed => (t, some (.closedEarly t.received count))

end Tally

def seconds (n : Millis) : String :=
  let hundredths := (n + 5) / 10
  let tenth := Decimal.write (hundredths % 100 / 10)
  s!"{Decimal.write (hundredths / 100)}.{tenth}{Decimal.write (hundredths % 10)}"

def submit (build : Build) (o : Options) (link : Link) (elapsed : Millis) : Conversation :=
  match jobIds build o.firstId o.count with
  | .error panic => { outlet := link.outlet, failure := some (.panicked panic) }
  | .ok ids =>
    match requestAll o.jobType link.outlet ids with
    | (some e, outlet) => { outlet := outlet, failure := some e }
    | (none, outlet) =>
      let begun := s!"Submitted {Decimal.write o.count.toNat} job(s) of type {o.jobType.name}."
      let cut := Failure.connectionFailed (link.failure.getD "")
      let (t, failure) := Tally.collect o.count.toNat cut {} link.items
      let ended :=
        s!"Received {Decimal.write t.received} result(s), {Decimal.write t.failed} failed, " ++
          s!"in {seconds elapsed}s."
      { output := begun :: t.output ++ (if failure.isSome then [] else [ended])
        complaint := t.complaint, outlet := outlet, failure := failure }

end JobBroker.Control
