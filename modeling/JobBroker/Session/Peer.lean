import JobBroker.Session.Basic
/-!
The other end of a connection whose two directions hold a limited number of bytes. After each act
of the peer the session works until it has to wait.
-/
namespace JobBroker

def readLimit : Nat := 4096

namespace Connection

def receiveReads (c : Connection) (consumed : Nat) : List Bytes → Connection × Nat
  | [] => (c, consumed)
  | read :: rest =>
    if c.isOver then (c, consumed)
    else receiveReads (c.receive read) (consumed + read.length) rest

def readsOf (capacity : Nat) (bytes : Bytes) : List Bytes :=
  (chunks capacity bytes).flatMap (chunks readLimit)

/-- The peer writes bytes. They are taken if the session reads them, or if the pipe holds what a
session that has ended did not read. -/
def peerWrite (c : Connection) (capacity : Nat) (bytes : Bytes) : Bool × Connection :=
  if c.isOver then (bytes.isEmpty, c)
  else
    let (c, consumed) := c.receiveReads 0 (readsOf capacity bytes)
    (!c.isOver || bytes.length ≤ consumed + capacity, c)

def peerReadFrom : Nat → Bytes → Connection → Bytes × Connection
  | 0, done, c => (done, c)
  | fuel + 1, done, c =>
    let (bytes, o) := c.outlet.read
    let c := { c with outlet := o }
    if bytes.isEmpty then (done, c)
    else peerReadFrom fuel (done ++ bytes) c.send

def backlog (c : Connection) : Nat :=
  let s := c.session
  let bytesOf (job : TrackedJob) : Nat :=
    let (template, body) := s.endpoint.render job
    match encodeMessage template body s.chunkSize with
    | .error _ => 0
    | .ok pieces => pieces.flatten.length
  c.outbound.jobs.foldl (fun total job => total + bytesOf job) 0 +
    (s.inFlight.map (·.2.length)).getD 0

def peerRead (c : Connection) : Bytes × Connection := peerReadFrom (c.backlog + 2) [] c

def hangUp (c : Connection) : Connection := c.receiveEnd

end Connection
end JobBroker
