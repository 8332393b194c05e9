import JobBroker.Session.Basic
import JobBroker.Session.Handshake
/-!
How peers come and go. A requester is registered as soon as it connects; a worker first has to
name its specialty. Each is served by a session over the queue that the directory keeps for it,
and leaves the directory when its session is over.
-/
namespace JobBroker

/-- A connection that has been made and not been read from: who is at the other end, the reads
that have arrived, and where bytes for the peer go. -/
structure Arrival where
  peer : String
  reads : List Bytes := []
  /-- What is known of the end of the peer's stream. -/
  ending : Ending := .unknown
  outlet : Outlet := .sink none []

namespace Connection

def meet (c : Connection) : Ending → Connection
  | .unknown => c
  | .endOfStream => c.receiveEnd
  | .failure cause => c.finish (.failed cause)

def serve (c : Connection) (ending : Ending) (reads : List Bytes) : Connection :=
  (reads.foldl receive c.start).meet ending

end Connection

namespace Directory

def admitRequester (d : Directory) (p : Protocol) (a : Arrival) : Connection :=
  let (id, d) := d.registerRequester a.peer
  let session : Session :=
    { endpoint := .requester id, peer := a.peer, chunkSize := p.chunkSize.toNat }
  { directory := d, session := session, outlet := a.outlet : Connection }.serve a.ending a.reads

/-- Admit a worker that introduces itself. One that does not is turned away, and the directory
never hears of it. What follows the introduction belongs to the session. -/
def admitWorker (d : Directory) (p : Protocol) (a : Arrival) :
    Except HandshakeError Connection :=
  match awaitHandshake p.handshakeMillis.toNat a.ending {} a.reads with
  | (.error e, _, _) => .error e
  | (.ok specialty, reader, rest) =>
    let (id, d) := d.registerWorker a.peer specialty
    let session : Session :=
      { endpoint := .worker id, peer := a.peer, chunkSize := p.chunkSize.toNat, reader := reader }
    .ok ({ directory := d, session := session, outlet := a.outlet : Connection }.serve
      a.ending rest)

end Directory
end JobBroker
