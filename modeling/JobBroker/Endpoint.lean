import JobBroker.Directory.Basic
/-!
What a connection does with messages and jobs, for each of the two kinds of peer. A worker is
sent jobs and reports outcomes; a requester asks for jobs and is sent outcomes.
-/
namespace JobBroker

inductive Endpoint where
  | worker (id : Nat)
  | requester (id : Nat)
  deriving DecidableEq, Repr

inductive EndpointError where
  | job (cause : JobError)
  | directory (cause : DirectoryError)
  deriving DecidableEq, Repr

def EndpointError.message : EndpointError → String
  | job e => e.message
  | directory e => e.message

namespace Directory

def onWorkerMessage (d : Directory) (worker : Nat) (p : Packet) :
    Directory × Except EndpointError Unit :=
  match Job.ofResult p with
  | .error e => (d, .error (.job e))
  | .ok result =>
    match d.complete worker result with
    | (d, .error e) => (d, .error (.directory e))
    | (d, .ok _) => (d, .ok ())

def onRequesterMessage (d : Directory) (requester : Nat) (p : Packet) :
    Directory × Except EndpointError Unit :=
  match Job.ofRequest p with
  | .error e => (d, .error (.job e))
  | .ok request =>
    match d.submit requester request with
    | (d, .error e) => (d, .error (.directory e))
    | (d, .ok _) => (d, .ok ())

def onMessage (d : Directory) (peer : Endpoint) (p : Packet) :
    Directory × Except EndpointError Unit :=
  match peer with
  | .worker id => d.onWorkerMessage id p
  | .requester id => d.onRequesterMessage id p

/-- Note that a job was written to a peer's connection. Only results are counted. -/
def onSent (d : Directory) : Endpoint → Directory
  | .worker _ => d
  | .requester id => d.modifyRequester id Requester.recordDelivery

end Directory

def Endpoint.render (peer : Endpoint) (job : TrackedJob) : Packet × Bytes :=
  match peer with
  | .worker _ => (job.dispatchJob.requestPacket, [])
  | .requester _ =>
    let delivery := job.deliveryJob
    (delivery.resultTemplate, delivery.result)

end JobBroker
