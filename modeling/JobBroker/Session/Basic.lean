import JobBroker.Endpoint
import JobBroker.Session.State
import JobBroker.Stream.Reader
import JobBroker.Stream.Writer
/-!
A session serves one connection. Messages that come in are given to the directory; jobs of the
session's queue go out one after the other. A failed write closes the queue, but reading goes on.
When reading ends, so does sending, and what was not written is handed back with the report.
-/
namespace JobBroker

inductive ReceiveEnd where
  | endOfStream
  | shutdown
  | failed (cause : String)
  | fatal (cause : PacketError)
  deriving DecidableEq, Repr

def ReceiveEnd.message : ReceiveEnd → String
  | endOfStream => "end of stream"
  | shutdown => "shutdown"
  | failed cause => s!"read failed: {cause}"
  | fatal e => s!"fatal framing error: {e.message}"

structure SessionReport where
  ending : ReceiveEnd
  received : Nat
  discarded : Nat
  sent : Nat
  /-- The jobs that were not written whole, in the order of the queue. -/
  unsent : List TrackedJob
  deriving DecidableEq, Repr

namespace Endpoint

/-- A queue that nothing enters, for a peer that the directory does not know. -/
def noQueue : JobQueue := { name := .requests, consumer := .dropped }

def queue (peer : Endpoint) (d : Directory) : JobQueue :=
  match peer with
  | .worker id => (d.workers[id]?.map (·.jobs)).getD noQueue
  | .requester id => (d.requesters[id]?.map (·.results)).getD noQueue

def setQueue (peer : Endpoint) (d : Directory) (q : JobQueue) : Directory :=
  match peer with
  | .worker id => { d with workers := d.workers.modify id fun w => { w with jobs := q } }
  | .requester id =>
    { d with requesters := d.requesters.modify id fun r => { r with results := q } }

end Endpoint

structure Session where
  endpoint : Endpoint
  peer : String
  chunkSize : Nat
  /-- The queue of jobs to be written, where it is not the one that the directory keeps for the
  peer. -/
  ownQueue : Option JobQueue := none
  reader : StreamReader := {}
  state : SessionState := .connecting
  received : Nat := 0
  discarded : Nat := 0
  sent : Nat := 0
  /-- The job that is being written, with the bytes that wait for room. -/
  inFlight : Option (TrackedJob × Bytes) := none
  /-- The job that could not be written, after which nothing more is. -/
  failed : Option TrackedJob := none
  report : Option SessionReport := none

structure Connection where
  directory : Directory
  session : Session
  outlet : Outlet

namespace Connection

def outbound (c : Connection) : JobQueue :=
  match c.session.ownQueue with
  | some q => q
  | none => c.session.endpoint.queue c.directory

def setOutbound (c : Connection) (q : JobQueue) : Connection :=
  match c.session.ownQueue with
  | some _ => { c with session := { c.session with ownQueue := some q } }
  | none => { c with directory := c.session.endpoint.setQueue c.directory q }

def isOver (c : Connection) : Bool := c.session.report.isSome

def emit (c : Connection) (e : Event) : Connection := { c with directory := c.directory.emit e }

def discard (c : Connection) : Connection :=
  { c with session := { c.session with discarded := c.session.discarded + 1 } }.emit
    (.packetDiscarded c.session.peer)

def finish (c : Connection) (ending : ReceiveEnd) : Connection :=
  if c.isOver then c
  else
    let (left, q, es) := c.outbound.drain
    let c := c.setOutbound q.drop
    let s := c.session
    let unfinished := s.inFlight.map (·.1)
    let report : SessionReport :=
      { ending := ending, received := s.received, discarded := s.discarded, sent := s.sent,
        unsent := s.failed.toList ++ unfinished.toList ++ left }
    { c with
      directory := c.directory.emitAll es
      session := { s with state := .closed, inFlight := none, report := some report } }

def onMessage (c : Connection) (p : Packet) : Connection :=
  let c := { c with session := { c.session with received := c.session.received + 1 } }
  match c.directory.onMessage c.session.endpoint p with
  | (d, .ok ()) => { c with directory := d }
  | (d, .error _) => { c with directory := d }.discard

/-- Take one item of the peer's stream. A fatal fault ends the session. -/
def onItem (c : Connection) (item : Inbound) : Connection :=
  if c.isOver then c
  else
    match item with
    | .message p => c.onMessage p
    | .malformed e => if e.isFatal then c.finish (.fatal e) else c.discard
    | .closed => c.finish .endOfStream

def onItems (c : Connection) : Connection :=
  let (items, r) := c.session.reader.drain
  items.foldl onItem { c with session := { c.session with reader := r } }

def receive (c : Connection) (bytes : Bytes) : Connection :=
  if c.isOver then c
  else
    { c with session := { c.session with reader := c.session.reader.take bytes } }.onItems

def receiveEnd (c : Connection) : Connection :=
  if c.isOver then c
  else
    let (item, r) := c.session.reader.finish
    ({ c with session := { c.session with reader := r } }.onItem item).onItem .closed

def noteSent (c : Connection) : Connection :=
  { c with
    directory := c.directory.onSent c.session.endpoint
    session := { c.session with inFlight := none, sent := c.session.sent + 1 } }

def failSending (c : Connection) (job : TrackedJob) : Connection :=
  let c := c.setOutbound c.outbound.close
  { c with session := { c.session with inFlight := none, failed := some job } }

def holdJob (c : Connection) (job : TrackedJob) (rest : Bytes) : Connection :=
  { c with session := { c.session with inFlight := some (job, rest) } }

/-- Flush the bytes of a job, which has been written when that is done. -/
def flushJob (c : Connection) (job : TrackedJob) : Connection :=
  match c.outlet.flush with
  | .done => c.noteSent
  | .waiting => c.holdJob job []
  | .broken _ => c.failSending job

def writeJob (c : Connection) (job : TrackedJob) (bytes : Bytes) : Connection :=
  let (written, o) := c.outlet.write bytes
  let c := { c with outlet := o }
  match written with
  | .all => c.flushJob job
  | .blocked rest => c.holdJob job rest
  | .broken _ => c.failSending job

def startJob (c : Connection) (job : TrackedJob) : Connection :=
  let (template, body) := c.session.endpoint.render job
  match encodeMessage template body c.session.chunkSize with
  | .error _ => c.failSending job
  | .ok pieces => c.writeJob job pieces.flatten

def sendStep (c : Connection) : Option Connection :=
  if c.isOver || c.session.failed.isSome then none
  else
    match c.session.inFlight with
    | some (job, rest) => some (c.writeJob job rest)
    | none =>
      match c.outbound.tryDequeue with
      | none => none
      | some (job, q, e) => some (((c.setOutbound q).emit e).startJob job)

def sendMany : Nat → Connection → Connection
  | 0, c => c
  | n + 1, c =>
    match c.sendStep with
    | none => c
    | some c => if c.session.inFlight.isSome then c else sendMany n c

def send (c : Connection) : Connection := sendMany (c.outbound.length + 1) c

def start (c : Connection) : Connection :=
  { c with session := { c.session with state := c.session.state.advance .active } }.onItems.send

def enqueue (c : Connection) (job : TrackedJob) : Except TrackedJob Connection :=
  match c.outbound.enqueue job with
  | .error job => .error job
  | .ok (q, e) => .ok ((c.setOutbound q).emit e).send

end Connection
end JobBroker
