import JobBroker.Control.Submission
/-!
The control program as a worker: it names its specialty, lets time pass for every job, and answers
with a number that it makes up.
-/
namespace JobBroker.Control

def serviceMillis (o : Options) (jobType : JobType) : UInt64 :=
  if o.jobType = jobType then o.fastMillis else o.slowMillis

/-- The jobs among what comes, up to the end of the stream, and the complaints of all else. -/
def jobsAmong : List Inbound → List Job × List String
  | [] | .closed :: _ => ([], [])
  | .malformed e :: rest =>
    let (jobs, notes) := jobsAmong rest
    (jobs, s!"  discarded input: {e.message}" :: notes)
  | .message p :: rest =>
    let (jobs, notes) := jobsAmong rest
    match Job.ofRequest p with
    | .ok job => (job :: jobs, notes)
    | .error e => (jobs, s!"  ignoring malformed job: {e.message}" :: notes)

def workThrough (o : Options) (draw : Nat → UInt32) (done : Nat) (c : Conversation) :
    List Job → Conversation
  | [] =>
    let line := s!"Coordinator closed the connection after {Decimal.write done} job(s)."
    { c with output := c.output ++ [line] }
  | job :: jobs =>
    let answer := Decimal.write (draw done).toNat
    let result := job.withOutcome true (Text.bytes answer)
    match c.outlet.sendMessage result.resultTemplate result.result defaultChunkSize with
    | (.error e, outlet) => { c with outlet := outlet, failure := some (.resultNotSent job.id e) }
    | (.ok _, outlet) =>
      let took := Decimal.write (serviceMillis o job.jobType).toNat
      let line :=
        s!"  job {Text.alignRight 6 (Decimal.write job.id.toNat)}  {job.jobType.name}  " ++
          s!"{Text.alignRight 5 took}ms  -> {answer}"
      workThrough o draw (done + 1) { c with output := c.output ++ [line], outlet := outlet } jobs

def serve (o : Options) (port : UInt16) (link : Link) (draw : Nat → UInt32) : Conversation :=
  match link.outlet.sendPacket (handshakePacket o.jobType) with
  | (.error e, outlet) => { outlet := outlet, failure := some (.handshakeNotSent e) }
  | (.ok (), outlet) =>
    let (jobs, notes) := jobsAmong link.items
    let notes := notes ++ (link.failure.map fun cause => s!"  read failed: {cause}").toList
    let begun :=
      s!"Worker connected to {o.host}:{Decimal.write port.toNat}, " ++
        s!"optimised for {o.jobType.name}."
    workThrough o draw 0 { output := [begun], complaint := notes, outlet := outlet } jobs

end JobBroker.Control
